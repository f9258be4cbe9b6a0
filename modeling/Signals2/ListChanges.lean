/-
What the steps of a run make of the slot list that an invocation walks, with or
without `set_combiner`: at most one node comes or goes, and only in a cleanup.
-/

import Signals2.Library.ListWalks
import Signals2.CurrentList
import Signals2.Positions

namespace Signals2

open LinkedLists

variable {σ : SignalTemplate}

namespace World

variable {w w' : World σ} {a : Action σ}

/-- What a step can do to a list; `new` is the body that the next connect makes. -/
inductive ListChange (list : LinkedList BodyId) (new : BodyId) : LinkedList BodyId → Prop
  | same : ListChange list new list
  | erase (place : Iterator) : ListChange list new (list.erase place)
  | insert (place : Iterator) : ListChange list new (list.insert place new)

theorem pushConnection_list (list : GroupedList σ.Group BodyId) (arguments : ConnectArguments σ)
    (b : BodyId) : ListChange list.list b (pushConnection list arguments b).list := by
  unfold pushConnection
  cases arguments.position with
  | atBack => exact .insert _
  | atFront => exact .insert _

theorem ListEffect.current_list (effect : ListEffect w a w') {impl impl' : SignalImpl}
    (present : w.heap.impl = some impl) (present' : w'.heap.impl = some impl')
    (state : impl'.sharedState = impl.sharedState) (below : HeapBelow w.heap) :
    ListChange (w.heap.connectionBodies impl).list w.nextBody
      (w'.heap.connectionBodies impl').list := by
  cases effect with
  | keep current cleanup =>
      obtain ⟨other, held, same, _⟩ := current impl' present'
      cases present.symm.trans held
      rw [same]
      exact .same
  | start other it i count grabTracked after free held position heap critical =>
      rw [heap] at present' ⊢
      cases present.symm.trans present'
      exact .same
  | copy other grabTracked after held heap critical =>
      rw [heap] at present'
      cases present'
      cases present.symm.trans held
      exact absurd state (Nat.ne_of_gt (below.impl impl present))
  | erase other it i i' count grabTracked after b list next before held here dead erased heap
      critical =>
      rw [heap] at present' ⊢
      cases present.symm.trans held
      cases present.symm.trans present'
      simp only [Heap.connectionBodies, Heap.setConnectionBodies, Function.update_self,
        (GroupedList.erase_some erased).1]
      exact .erase it
  | skip other it i i' count grabTracked after b before held here heap critical =>
      rw [heap] at present' ⊢
      cases present.symm.trans present'
      exact .same
  | save other it i count grabTracked after before held heap critical =>
      rw [heap] at present' ⊢
      cases present.symm.trans held
      cases present'
      exact .same
  | connect other it i count grabTracked arguments before held heap bodies connects critical =>
      rw [heap] at present' ⊢
      cases present.symm.trans held
      cases present'
      simp only [Heap.connectionBodies, Heap.setConnectionBodies, Heap.setGarbageCollectorIt,
        Function.update_self]
      exact pushConnection_list _ arguments w.nextBody

/-- A list object that a step changes is the current one. -/
theorem HeapChange.list_origin {heap heap' : Heap σ} {running : Bool} {unique : StateId → Bool}
    (change : HeapChange heap running unique a heap') {l : ListId} (bounded : l < heap.nextList) :
    heap'.lists l = heap.lists l ∨ ∃ impl impl', heap.impl = some impl ∧
      heap'.impl = some impl' ∧ impl'.sharedState = impl.sharedState ∧
      heap'.states = heap.states ∧ l = (heap.states impl.sharedState).connectionBodies := by
  cases change with
  | same => exact .inl rfl
  | sweep impl list it running present name =>
      by_cases here : l = (heap.states impl.sharedState).connectionBodies
      · exact .inr ⟨impl, _, present, rfl, rfl, rfl, here⟩
      · exact .inl (Function.update_of_ne here _ _)
  | copy impl present => exact .inl (Function.update_of_ne (Nat.ne_of_lt bounded) _ _)
  | assign combiner impl present alone => exact .inl rfl
  | replace combiner impl present => exact .inl rfl
  | destroy => exact .inl rfl

/-- The list that a local copy of the shared state has. -/
theorem Effect.list_change (effect : Effect w a w') (sharing : w.Sharing) {s : StateId}
    (below : s < w.heap.nextState) :
    ListChange (w.listOf s).list w.nextBody (w'.listOf s).list := by
  have bounded := sharing.heap.lists s below
  unfold listOf
  rw [effect.change.heap.states below]
  rcases effect.change.heap.list_origin bounded with
    same | ⟨impl, impl', present, present', state, states, here⟩
  · rw [same]
    exact .same
  · have changed := effect.listEffect.current_list present present' state sharing.heap
    unfold Heap.connectionBodies at changed
    rw [state, states, ← here] at changed
    exact changed

/-! ### What every run keeps, with or without `set_combiner` -/

structure Charted (w : World σ) : Prop where
  sharing : w.Sharing
  sectionPlaced : w.SectionPlaced
  current : w.CurrentDistinct
  listed : ∀ b, Listed w.heap b → b < w.nextBody
  distinct : ∀ s, some s ∈ w.readers .invocation → (w.listOf s).list.values.Nodup

theorem construct_charted (combiner : σ.Combiner)
    (defaultCompare groupCompare : σ.Group → σ.Group → Bool) (owners : ObjectId → Nat) :
    (World.construct combiner defaultCompare groupCompare owners).Charted where
  sharing := construct_sharing combiner defaultCompare groupCompare owners
  sectionPlaced := trivial
  current impl present := by
    cases present
    exact List.nodup_nil
  listed b listed := by
    obtain ⟨l, member⟩ := listed
    cases member
  distinct s member := by cases member

theorem ListChange.nodup {list list' : LinkedList BodyId} {new : BodyId}
    (change : ListChange list new list') (distinct : list.values.Nodup)
    (absent : new ∉ list.values) : list'.values.Nodup := by
  cases change with
  | same => exact distinct
  | erase place => exact distinct.sublist (List.filter_sublist.map Prod.snd)
  | insert place =>
      have whole : (list.insert place new).values.Perm (new :: list.values) :=
        (insertBefore_perm _ _ _).map Prod.snd
      exact whole.nodup_iff.mpr (List.nodup_cons.mpr ⟨absent, distinct⟩)

theorem Charted.new_unlisted (charted : w.Charted) (s : StateId) :
    w.nextBody ∉ (w.listOf s).list.values := fun member =>
  Nat.lt_irrefl _ (charted.listed w.nextBody ⟨_, member⟩)

theorem Charted.step (charted : w.Charted) (stepped : w.step a = some w') : w'.Charted := by
  have effect := (step_effect stepped).2
  have sharing := charted.sharing.step effect.change
  have current := charted.current.step charted.listed effect
  exact {
    sharing := sharing
    sectionPlaced := charted.sectionPlaced.step (fun still s member =>
      charted.sharing.list_kept effect.change still member) effect
    current := current
    listed := effect.listed_below charted.listed
    distinct := by
      intro s member
      rcases (effect.change.readers .invocation).mem member with old | ⟨_, joined⟩
      · have changed := effect.list_change charted.sharing (charted.sharing.readers _ s old)
        exact changed.nodup (charted.distinct s old) (charted.new_unlisted s)
      · obtain ⟨impl, present, rfl⟩ := Option.map_eq_some_iff.mp joined
        exact current impl present }

end World

end Signals2
