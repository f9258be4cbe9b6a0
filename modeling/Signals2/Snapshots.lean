/-
Snapshots of the slot list.  A reader keeps the list object it started with;
the question is whether anybody else edits that object.  Nobody does as long as
`_shared_state` is never given a list that a reader still holds under another
state, which is what `set_combiner` can do.
-/

import Signals2.Sharing

namespace Signals2

open LinkedLists

variable {σ : SignalTemplate}

namespace World

variable {w w' : World σ} {a : Action σ} {kind : ReaderKind}

/-- A reader of another state than the shared one reads another list. -/
def ListsApart (w : World σ) (kind : ReaderKind) : Prop :=
  ∀ s, w.shared = some s → ∀ r, some r ∈ w.readers kind → r ≠ s →
    (w.heap.states r).connectionBodies ≠ (w.heap.states s).connectionBodies

/-- `set_combiner` is not called while a reader holds the list that
`_shared_state` points to. -/
def ListUnread (kind : ReaderKind) (w : World σ) (a : Action σ) : Prop :=
  ∀ combiner, a = .setCombiner combiner → ∀ s, w.shared = some s →
    ∀ r, some r ∈ w.readers kind →
      (w.heap.states r).connectionBodies ≠ (w.heap.states s).connectionBodies

theorem construct_listsApart (combiner : σ.Combiner)
    (defaultCompare groupCompare : σ.Group → σ.Group → Bool) (owners : ObjectId → Nat) :
    (World.construct combiner defaultCompare groupCompare owners).ListsApart kind := by
  intro s current r member
  cases kind <;> cases member

private theorem apart_of_heap {heap heap' : Heap σ} {running : Bool} {unique : StateId → Bool}
    (below : HeapBelow heap) (change : HeapChange heap running unique a heap') {r : StateId}
    (bounded : r < heap.nextState)
    (apart : ∀ impl, heap.impl = some impl → r ≠ impl.sharedState →
      (heap.states r).connectionBodies ≠ (heap.states impl.sharedState).connectionBodies)
    (unread : ∀ combiner, a = .setCombiner combiner → ∀ impl, heap.impl = some impl →
      (heap.states r).connectionBodies ≠ (heap.states impl.sharedState).connectionBodies) :
    ∀ impl, heap'.impl = some impl → r ≠ impl.sharedState →
      (heap'.states r).connectionBodies ≠ (heap'.states impl.sharedState).connectionBodies := by
  intro impl' present' other
  have same := change.states bounded
  cases change with
  | same => exact apart impl' present' other
  | sweep impl list it running present name =>
      cases present'
      exact apart impl present other
  | copy impl present =>
      cases present'
      have fresh : ((heap.copyConnectionBodies impl).states heap.nextState).connectionBodies =
          heap.nextList := by simp [Heap.copyConnectionBodies]
      rw [same, fresh]
      exact Nat.ne_of_lt (below.lists r bounded)
  | assign combiner impl present alone => exact apart impl' present' other
  | replace combiner impl present =>
      cases present'
      have kept : ((heap.replaceCombiner impl combiner).states heap.nextState).connectionBodies =
          (heap.states impl.sharedState).connectionBodies := by simp [Heap.replaceCombiner]
      rw [same, kept]
      exact unread combiner rfl impl present
  | destroy => cases present'

theorem ListsApart.step (apart : w.ListsApart kind) (sharing : w.Sharing)
    (unread : ListUnread kind w a) (change : Change w a w') : w'.ListsApart kind := by
  intro s current r member other
  obtain ⟨impl', present', rfl⟩ := Option.map_eq_some_iff.mp current
  have old : some r ∈ w.readers kind := by
    rcases (change.readers kind).mem member with old | joined
    · exact old
    · exact absurd (Option.some.inj (joined.2.symm.trans current)) other
  refine apart_of_heap sharing.heap change.heap (sharing.readers kind r old) ?_ ?_ impl' present'
    other
  · intro impl present apartFrom
    exact apart impl.sharedState (shared_of_present present) r old apartFrom
  · intro combiner same impl present
    exact unread combiner same impl.sharedState (shared_of_present present) r old

/-! ### What a reader keeps -/

private theorem list_of_heap {heap heap' : Heap σ} {running : Bool} {unique : StateId → Bool}
    (change : HeapChange heap running unique a heap') {l : ListId}
    (bounded : l < heap.nextList)
    (unswept : running = true → ∀ impl, heap.impl = some impl →
      l ≠ (heap.states impl.sharedState).connectionBodies) :
    heap'.lists l = heap.lists l := by
  cases change with
  | same => rfl
  | sweep impl list it running present name =>
      exact Function.update_of_ne (unswept running impl present) _ _
  | copy impl present => exact Function.update_of_ne (Nat.ne_of_lt bounded) _ _
  | assign combiner impl present alone => rfl
  | replace combiner impl present => rfl
  | destroy => rfl

/-- A step changes neither the state nor the list that a reader holds. -/
theorem ListsApart.kept (apart : w.ListsApart kind) (sharing : w.Sharing)
    (change : Change w a w') {s : StateId} (member : some s ∈ w.readers kind) :
    w'.heap.states s = w.heap.states s ∧ w'.listOf s = w.listOf s := by
  have bounded := sharing.readers kind s member
  have state := change.heap.states bounded
  refine ⟨state, ?_⟩
  unfold listOf
  rw [state]
  refine list_of_heap change.heap (sharing.heap.lists s bounded) ?_
  intro running impl present
  have current := shared_of_present present
  have other : s ≠ impl.sharedState := by
    intro same
    exact sharing.exclusive running impl.sharedState current kind (same ▸ member)
  exact apart impl.sharedState current s member other

/-- Only a cleanup changes a list that a reader holds. -/
theorem Sharing.list_kept (sharing : w.Sharing) (change : Change w a w')
    (still : w.sweeping = false) {s : StateId} (member : some s ∈ w.readers kind) :
    w'.listOf s = w.listOf s := by
  have bounded := sharing.readers kind s member
  unfold listOf
  rw [change.heap.states bounded]
  apply list_of_heap change.heap (sharing.heap.lists s bounded)
  intro running
  rw [still] at running
  cases running

/-- What holds between two moments for every reader of a kind: it never comes
back, and meanwhile what it sees of its state stays as it is. -/
structure Kept {View : Type} (kind : ReaderKind) (view : World σ → StateId → View)
    (w w' : World σ) : Prop where
  reader : ∀ (n : Nat) (x : Option StateId), (w.readers kind)[n]? = some x →
    ∃ y, (w'.readers kind)[n]? = some y ∧ (y = x ∨ y = none)
  same : ∀ (n : Nat) (s : StateId), (w.readers kind)[n]? = some (some s) →
    (w'.readers kind)[n]? = some (some s) → view w' s = view w s

section Kept

variable {View : Type} {view : World σ → StateId → View}

theorem Kept.refl (kind : ReaderKind) (view : World σ → StateId → View) (w : World σ) :
    Kept kind view w w where
  reader _ x found := ⟨x, found, .inl rfl⟩
  same _ _ _ _ := rfl

theorem Kept.trans {first second third : World σ} (left : Kept kind view first second)
    (right : Kept kind view second third) : Kept kind view first third where
  reader n x found := by
    obtain ⟨y, middle, origin⟩ := left.reader n x found
    obtain ⟨z, last, later⟩ := right.reader n y middle
    refine ⟨z, last, ?_⟩
    rcases later with rfl | rfl
    · exact origin
    · exact .inr rfl
  same n s start final := by
    obtain ⟨y, middle, origin⟩ := left.reader n (some s) start
    obtain ⟨z, last, later⟩ := right.reader n y middle
    cases final.symm.trans last
    have still : y = some s := by
      rcases later with same | gone
      · exact same.symm
      · cases gone
    subst still
    exact (right.same n s middle final).trans (left.same n s start middle)

/-- An invocation in progress at both moments has the same local state. -/
theorem Kept.invocation {i : InvocationId} {inv inv' : Invocation σ} {s : StateId}
    (kept : Kept .invocation view w w') (found : w.invocations[i]? = some inv)
    (state : inv.localState = some s) (found' : w'.invocations[i]? = some inv')
    (progress : inv'.localState ≠ none) :
    inv'.localState = some s ∧ view w' s = view w s := by
  have here : (w.readers .invocation)[i]? = some (some s) := by simp [readers, found, state]
  obtain ⟨y, there, origin⟩ := kept.reader i (some s) here
  have same : inv'.localState = y := by simpa [readers, found'] using there
  have still : inv'.localState = some s := by
    rcases origin with held | gone
    · rw [same, held]
    · exact absurd (same.trans gone) progress
  rw [same.symm.trans still] at there
  exact ⟨still, kept.same i s here there⟩

end Kept

theorem ReaderChange.persists {shared shared' : Option StateId}
    {before after : List (Option StateId)} (change : ReaderChange shared shared' before after)
    {n : Nat} {x : Option StateId} (found : before[n]? = some x) :
    ∃ y, after[n]? = some y ∧ (y = x ∨ y = none) := by
  have bound : n < before.length := (List.getElem?_eq_some_iff.mp found).1
  cases change with
  | same => exact ⟨x, found, .inl rfl⟩
  | leave m =>
      by_cases here : m = n
      · subst here
        exact ⟨none, List.getElem?_set_self bound, .inr rfl⟩
      · exact ⟨x, (List.getElem?_set_ne here).trans found, .inl rfl⟩
  | join s current stays => exact ⟨x, (List.getElem?_append_left bound).trans found, .inl rfl⟩

theorem ReaderChange.origin {shared shared' : Option StateId}
    {before after : List (Option StateId)} (change : ReaderChange shared shared' before after)
    {n : Nat} {s : StateId} (found : after[n]? = some (some s)) :
    before[n]? = some (some s) ∨ shared' = some s := by
  cases change with
  | same => exact .inl found
  | leave m =>
      left
      by_cases here : m = n
      · subst here
        rw [List.getElem?_set] at found
        split at found <;> simp_all
      · rwa [List.getElem?_set_ne here] at found
  | join s' current stays =>
      rcases Nat.lt_or_ge n before.length with old | new
      · rw [List.getElem?_append_left old] at found
        exact .inl found
      · rw [List.getElem?_append_right new] at found
        have member := List.mem_of_getElem? found
        cases List.mem_singleton.mp member
        exact .inr stays

theorem ReaderChange.length_le {shared shared' : Option StateId}
    {before after : List (Option StateId)} (change : ReaderChange shared shared' before after) :
    before.length ≤ after.length := by
  cases change with
  | same => exact Nat.le_refl _
  | leave n => exact Nat.le_of_eq List.length_set.symm
  | join s current stays =>
      rw [List.length_append]
      exact Nat.le_add_right _ _

/-- Invocations leave their places in the list to nobody. -/
theorem Change.joins (change : Change w a w') : w.invocations.length ≤ w'.invocations.length := by
  have longer := (change.readers .invocation).length_le
  simpa [World.readers] using longer

/-- The identity and the content of the slot list of a state. -/
def listView (w : World σ) (s : StateId) : ListId × GroupedList σ.Group BodyId :=
  ((w.heap.states s).connectionBodies, w.listOf s)

theorem ListsApart.kept_step (apart : w.ListsApart kind) (sharing : w.Sharing)
    (change : Change w a w') : Kept kind listView w w' where
  reader _ _ found := (change.readers kind).persists found
  same _ _ start _ := by
    obtain ⟨states, list⟩ := apart.kept sharing change (List.mem_of_getElem? start)
    rw [listView, listView, states, list]

end World

end Signals2
