/-
The list that `_shared_state` points to.  With one group comparison throughout,
it stays consistent with its group map, and the saved and the running position of
the cleanup refer to it, in every run.
-/

import Signals2.BodyHistory
import Signals2.LiveConnections
import Signals2.SlotGroupsOperations

namespace Signals2

open LinkedLists OrderedInsertion

variable {σ : SignalTemplate}

namespace World

variable {w w' : World σ} {a : Action σ}

/-- What a step makes of the current list and of the cleanup that walks it. -/
inductive ListEffect (w : World σ) (a : Action σ) (w' : World σ) : Prop
  | keep
      (current : ∀ impl', w'.heap.impl = some impl' → ∃ impl, w.heap.impl = some impl ∧
        w'.heap.connectionBodies impl' = w.heap.connectionBodies impl ∧
        impl'.garbageCollectorIt = impl.garbageCollectorIt)
      (cleanup : w'.critical = w.critical ∨ w.sweeping = false ∧ w'.sweeping = false)
  | start (impl : SignalImpl) (it : Iterator) (i count : Nat) (grabTracked : Bool)
      (after : AfterCleanup σ) (free : w.critical = none) (present : w.heap.impl = some impl)
      (position : it = (w.heap.connectionBodies impl).list.begin ∨ it = impl.garbageCollectorIt)
      (heap : w'.heap = w.heap)
      (critical : w'.critical = some (.cleanupConnections it i count grabTracked after))
  | copy (impl : SignalImpl) (grabTracked : Bool) (after : AfterCleanup σ)
      (present : w.heap.impl = some impl) (heap : w'.heap = w.heap.copyConnectionBodies impl)
      (critical : w'.critical = some (.cleanupConnections
        ((w.heap.connectionBodies impl).copy w.heap.nextList).list.begin 0 0 grabTracked after))
  | erase (impl : SignalImpl) (it : Iterator) (i i' count : Nat) (grabTracked : Bool)
      (after : AfterCleanup σ) (b : BodyId) (list : GroupedList σ.Group BodyId) (next : Iterator)
      (before : w.critical = some (.cleanupConnections it i count grabTracked after))
      (present : w.heap.impl = some impl)
      (here : (w.heap.connectionBodies impl).list.value? it = some b)
      (dead : (w'.bodies b).connected = false)
      (erased : (w.heap.connectionBodies impl).erase (w'.bodies b).groupKey it = some (list, next))
      (heap : w'.heap = w.heap.setConnectionBodies impl list)
      (critical : w'.critical = some (.cleanupConnections next i' count grabTracked after))
  | skip (impl : SignalImpl) (it : Iterator) (i i' count : Nat) (grabTracked : Bool)
      (after : AfterCleanup σ) (b : BodyId)
      (before : w.critical = some (.cleanupConnections it i count grabTracked after))
      (present : w.heap.impl = some impl)
      (here : (w.heap.connectionBodies impl).list.value? it = some b)
      (heap : w'.heap = w.heap)
      (critical : w'.critical = some (.cleanupConnections
        ((w.heap.connectionBodies impl).list.next it) i' count grabTracked after))
  | save (impl : SignalImpl) (it : Iterator) (i count : Nat) (grabTracked : Bool)
      (after : AfterCleanup σ)
      (before : w.critical = some (.cleanupConnections it i count grabTracked after))
      (present : w.heap.impl = some impl) (heap : w'.heap = w.heap.setGarbageCollectorIt impl it)
      (critical : w'.critical = none)
  | connect (impl : SignalImpl) (it : Iterator) (i count : Nat) (grabTracked : Bool)
      (arguments : ConnectArguments σ)
      (before : w.critical =
        some (.cleanupConnections it i count grabTracked (.connect arguments)))
      (present : w.heap.impl = some impl)
      (heap : w'.heap = (w.heap.setGarbageCollectorIt impl it).setConnectionBodies
        { impl with garbageCollectorIt := it }
        (pushConnection (w.heap.connectionBodies impl) arguments w.nextBody))
      (bodies : w'.bodies = (w.toBodyStore.newConnectionBody arguments.slot
        (groupKeyOf arguments)).bodies)
      (connects : a = .section ∧ w.Connects arguments)
      (critical : w'.critical = none)

private theorem ListEffect.still (heap : w'.heap = w.heap)
    (cleanup : w'.critical = w.critical ∨ w.sweeping = false ∧ w'.sweeping = false) :
    ListEffect w a w' := by
  refine .keep (fun impl' present => ⟨impl', ?_, ?_, rfl⟩) cleanup
  · rw [← heap]
    exact present
  · rw [heap]

theorem sweeping_of_free (free : w.critical = none) : w.sweeping = false := by
  simp only [sweeping, free]

theorem sweeping_of_grab {client : GrabClient} {b : BodyId} {todo : List VoidWeakPtr}
    {locked : Option (Option ObjectId)}
    (critical : w.critical = some (.grabTrackedObjects client b todo locked)) :
    w.sweeping = false := by
  simp only [sweeping, critical]

theorem sweeping_of_contains {t : TraversalId} {b : BodyId} {weakPimpl pimpl : ObjectId}
    {locked : Option ObjectId} (critical : w.critical = some (.contains t b weakPimpl pimpl locked)) :
    w.sweeping = false := by
  simp only [sweeping, critical]

theorem Effect.listEffect (effect : Effect w a w') : ListEffect w a w' := by
  cases effect with
  | sweepStart impl it count grabTracked after free present unique position ready =>
      exact .start impl it 0 count grabTracked after free present
        (position.imp id fun saved => saved.1) rfl rfl
  | copyAndSweep impl grabTracked after free present shared ready =>
      exact .copy impl grabTracked after present rfl rfl
  | assignCombiner combiner impl free present unique =>
      exact .keep (fun impl' present' => ⟨impl', present', rfl, rfl⟩) (.inl rfl)
  | replaceCombiner combiner impl free present shared =>
      refine .keep (fun impl' present' => ?_) (.inl rfl)
      cases present'
      exact ⟨impl, present, by simp [Heap.connectionBodies, setHeap, Heap.replaceCombiner], rfl⟩
  | start impl free present shared => exact .still rfl (.inl rfl)
  | traverse impl kind free present => exact .still rfl (.inl rfl)
  | destroy impl present => exact .keep (fun impl' gone => by cases gone) (.inl rfl)
  | grabStart client b free ready => exact .still rfl (.inr ⟨sweeping_of_free free, rfl⟩)
  | promote client b p rest critical alive =>
      exact .still rfl (.inr ⟨sweeping_of_grab critical, rfl⟩)
  | keep client b p rest locked critical =>
      refine .still ?_ (.inr ⟨sweeping_of_grab critical, rfl⟩)
      unfold insertLocked
      split
      · split <;> rfl
      · rfl
  | answer b todo locked u critical ended =>
      obtain ⟨store, rfl⟩ := ended.store
      exact .still rfl (.inr ⟨sweeping_of_grab critical, rfl⟩)
  | count t b todo locked u tr critical ended found =>
      obtain ⟨store, rfl⟩ := ended.store
      exact .still rfl (.inr ⟨sweeping_of_grab critical, rfl⟩)
  | commit i b locked inv critical found connected unblocked =>
      exact .still rfl (.inr ⟨sweeping_of_grab critical, rfl⟩)
  | skip i b todo locked u inv critical ended found blocked =>
      obtain ⟨store, rfl⟩ := ended.store
      exact .still rfl (.inr ⟨sweeping_of_grab critical, rfl⟩)
  | lost client b todo locked u critical ended missing =>
      obtain ⟨store, rfl⟩ := ended.store
      exact .still rfl (.inr ⟨sweeping_of_grab critical, rfl⟩)
  | contains t b weakPimpl pimpl locked u tr critical tested found =>
      obtain ⟨store, rfl⟩ := tested_store tested
      exact .still rfl (.inr ⟨sweeping_of_contains critical, rfl⟩)
  | containsLost t b weakPimpl pimpl locked u critical tested missing =>
      obtain ⟨store, rfl⟩ := tested_store tested
      exact .still rfl (.inr ⟨sweeping_of_contains critical, rfl⟩)
  | sweepErase it i count grabTracked after impl b list next critical present inside more here
      dead erased =>
      exact .erase impl it i (i + 1) count grabTracked after b list next critical present here dead
        erased rfl rfl
  | sweepSkip it i count grabTracked after impl b critical present inside more here connected =>
      refine .skip impl it i (i + 1) count grabTracked after b critical present here ?_ rfl
      obtain ⟨store, same⟩ := checkExpired_store w grabTracked b
      rw [same]
      rfl
  | sweepEnd it i count grabTracked after impl critical present done =>
      unfold finishCleanup
      cases after with
      | connect arguments =>
          exact .connect impl it i count grabTracked arguments critical present rfl rfl
            ⟨rfl, it, i, count, grabTracked, impl, critical, present, done⟩ rfl
      | invoke => exact .save impl it i count grabTracked .invoke critical present rfl rfl
      | forceCleanup k =>
          dsimp only
          split <;>
            exact .save impl it i count grabTracked (.forceCleanup k) critical present rfl rfl
  | disconnect b free alive => exact .still rfl (.inr ⟨sweeping_of_free free, rfl⟩)
  | throwExpired i inv b free found phase here =>
      exact .still rfl (.inr ⟨sweeping_of_free free, rfl⟩)
  | walkDisconnect t tr b free found inside here targets =>
      exact .still rfl (.inr ⟨sweeping_of_free free, rfl⟩)
  | move i inv inv' found move => exact .still rfl (.inl rfl)
  | reachEnd i inv free found phase atEnd callable =>
      exact .still rfl (.inr ⟨sweeping_of_free free, rfl⟩)
  | destroyCache i inv free found phase active =>
      exact .still rfl (.inr ⟨sweeping_of_free free, rfl⟩)
  | walk t tr tr' found walk => exact .still rfl (.inl rfl)
  | containsStart t tr b weakPimpl pimpl free found inside here kind connected slot held wrapped =>
      exact .still rfl (.inr ⟨sweeping_of_free free, rfl⟩)
  | outside w' outside => exact .still outside.heap (.inl outside.critical)
  | fault u f cause u_eq =>
      rcases u_eq with rfl | ⟨grabTracked, b, rfl⟩
      · exact .still rfl (.inl rfl)
      · obtain ⟨store, same⟩ := checkExpired_store w grabTracked b
        rw [same]
        exact .still rfl (.inl rfl)

/-! ### Consistency -/

def keyOf (w : World σ) (b : BodyId) : GroupKey σ.Group := (w.bodies b).groupKey

/-- The saved position of the cleanup counts while no cleanup runs, the running one
while one does. -/
structure Current (compare : σ.Group → σ.Group → Bool) (w : World σ) : Prop where
  consistent : ∀ impl, w.heap.impl = some impl →
    (w.heap.connectionBodies impl).Consistent compare w.keyOf
  saved : w.sweeping = false → ∀ impl, w.heap.impl = some impl →
    (w.heap.connectionBodies impl).list.Valid impl.garbageCollectorIt
  running : ∀ it i count grabTracked after,
    w.critical = some (.cleanupConnections it i count grabTracked after) →
      ∀ impl, w.heap.impl = some impl → (w.heap.connectionBodies impl).list.Valid it

theorem construct_current (combiner : σ.Combiner) (compare : σ.Group → σ.Group → Bool)
    (owners : ObjectId → Nat) :
    (World.construct combiner compare compare owners).Current compare where
  consistent impl present := GroupedList.construct_consistent 0 compare _
  saved _ impl present := by
    cases present
    exact .inl rfl
  running it i count grabTracked after critical := by cases critical

/-- Keys of bodies that exist do not change. -/
theorem Effect.keyOf_kept (effect : Effect w a w') {b : BodyId} (below : b < w.nextBody) :
    w'.keyOf b = w.keyOf b := by
  rcases effect.ages with ages | ⟨_, arguments, connects, bodies, nextBody⟩
  · exact (ages.bodies b).groupKey
  · unfold keyOf
    rw [bodies, BodyStore.newConnectionBody_old _ _ (Nat.ne_of_lt below)]

/-- A finished or a new cleanup position is the only one to look at. -/
private theorem Current.of_running {compare : σ.Group → σ.Group → Bool} {it : Iterator}
    {i count : Nat} {grabTracked : Bool} {after : AfterCleanup σ}
    (critical : w'.critical = some (.cleanupConnections it i count grabTracked after))
    (consistent : ∀ impl, w'.heap.impl = some impl →
      (w'.heap.connectionBodies impl).Consistent compare w'.keyOf)
    (valid : ∀ impl, w'.heap.impl = some impl →
      (w'.heap.connectionBodies impl).list.Valid it) : w'.Current compare where
  consistent := consistent
  saved still := by simp [sweeping, critical] at still
  running it' i' count' grabTracked' after' taken := by
    cases critical.symm.trans taken
    exact valid

private theorem Current.of_saved {compare : σ.Group → σ.Group → Bool}
    (critical : w'.critical = none)
    (consistent : ∀ impl, w'.heap.impl = some impl →
      (w'.heap.connectionBodies impl).Consistent compare w'.keyOf)
    (valid : ∀ impl, w'.heap.impl = some impl →
      (w'.heap.connectionBodies impl).list.Valid impl.garbageCollectorIt) :
    w'.Current compare where
  consistent := consistent
  saved _ := valid
  running it i count grabTracked after taken := by
    rw [critical] at taken
    cases taken

private theorem consistent_pushConnection {compare : σ.Group → σ.Group → Bool}
    (order : StrictWeak compare) {g : GroupedList σ.Group BodyId} {key : BodyId → GroupKey σ.Group}
    (consistent : g.Consistent compare key) {arguments : ConnectArguments σ} {b : BodyId}
    (keyed : key b = groupKeyOf arguments) :
    (pushConnection g arguments b).Consistent compare key := by
  unfold pushConnection
  cases arguments.position with
  | atBack => exact (consistent.pushBack order keyed).1
  | atFront => exact (consistent.pushFront order keyed).1

theorem Consistent.pushConnection_values {compare : σ.Group → σ.Group → Bool}
    (order : StrictWeak compare) {g : GroupedList σ.Group BodyId} {key : BodyId → GroupKey σ.Group}
    (consistent : g.Consistent compare key) {arguments : ConnectArguments σ} {b : BodyId}
    (keyed : key b = groupKeyOf arguments) :
    (pushConnection g arguments b).list.values =
      insertWhere (fun other => LiveConnection.prior compare (groupKeyOf arguments)
        arguments.position (key other)) b g.list.values := by
  unfold pushConnection LinkedList.values
  cases position : arguments.position with
  | atBack =>
      have nodes := (consistent.pushBack order keyed).2
      simp only [nodes]
      exact map_insertWhere Prod.snd
        (fun other => !groupKeyLess compare (groupKeyOf arguments) (key other)) _ _
  | atFront =>
      have nodes := (consistent.pushFront order keyed).2
      simp only [nodes]
      exact map_insertWhere Prod.snd
        (fun other => groupKeyLess compare (key other) (groupKeyOf arguments)) _ _

private theorem pushConnection_valid {list : GroupedList σ.Group BodyId} {it : Iterator}
    (valid : list.list.Valid it) (arguments : ConnectArguments σ) (b : BodyId) :
    (pushConnection list arguments b).list.Valid it := by
  unfold pushConnection
  cases arguments.position with
  | atBack => exact insert_valid valid _ b
  | atFront => exact insert_valid valid _ b

theorem Current.step {compare : σ.Group → σ.Group → Bool} (current : w.Current compare)
    (order : StrictWeak compare) (below : ∀ b, Listed w.heap b → b < w.nextBody)
    (effect : Effect w a w') : w'.Current compare := by
  have rekeyed : ∀ {g : GroupedList σ.Group BodyId}, g.Consistent compare w.keyOf →
      (∀ b ∈ g.list.values, Listed w.heap b) → g.Consistent compare w'.keyOf := by
    intro g consistent listed
    refine consistent.congr_keys fun node member => ?_
    exact effect.keyOf_kept (below node.2 (listed node.2 (List.mem_map_of_mem member)))
  have listed : ∀ impl : SignalImpl, ∀ b ∈ (w.heap.connectionBodies impl).list.values,
      Listed w.heap b := fun impl b member => ⟨_, member⟩
  cases effect.listEffect with
  | keep same cleanup =>
      refine {
        consistent := fun impl' present' => ?_
        saved := fun still impl' present' => ?_
        running := fun it i count grabTracked after critical impl' present' => ?_ }
      · obtain ⟨impl, present, list, _⟩ := same impl' present'
        rw [list]
        exact rekeyed (current.consistent impl present) (listed impl)
      · obtain ⟨impl, present, list, position⟩ := same impl' present'
        rw [list, position]
        refine current.saved ?_ impl present
        rcases cleanup with unchanged | quiet
        · simpa only [sweeping, unchanged] using still
        · exact quiet.1
      · obtain ⟨impl, present, list, _⟩ := same impl' present'
        rw [list]
        rcases cleanup with unchanged | quiet
        · rw [unchanged] at critical
          exact current.running it i count grabTracked after critical impl present
        · simp [sweeping, critical] at quiet
  | start impl it i count grabTracked after free present position heap critical =>
      refine .of_running critical (fun impl' present' => ?_) fun impl' present' => ?_
      · rw [heap] at present' ⊢
        exact rekeyed (current.consistent impl' present') (listed impl')
      · rw [heap] at present' ⊢
        cases present.symm.trans present'
        rcases position with rfl | rfl
        · exact begin_valid
        · exact current.saved (sweeping_of_free free) impl present
  | copy impl grabTracked after present heap critical =>
      refine .of_running critical (fun impl' present' => ?_) fun impl' present' => ?_
      · rw [heap] at present' ⊢
        cases present'
        have copied := (current.consistent impl present).copy w.heap.nextList
        have new := w.heap.copyConnectionBodies_new impl
        simp only [Heap.connectionBodies, Heap.copyConnectionBodies, Function.update_self] at new ⊢
        exact rekeyed copied (listed impl)
      · rw [heap] at present' ⊢
        cases present'
        simp only [Heap.connectionBodies, Heap.copyConnectionBodies, Function.update_self]
        exact begin_valid
  | erase impl it i i' count grabTracked after b list next before present here dead erased heap
      critical =>
      have rekeyedList := rekeyed (current.consistent impl present) (listed impl)
      obtain ⟨list', erased', consistent, nodes⟩ := rekeyedList.erase order here
      have same : (w'.bodies b).groupKey = w'.keyOf b := rfl
      rw [same, erased'] at erased
      cases erased
      refine .of_running critical (fun impl' present' => ?_) fun impl' present' => ?_
      · rw [heap] at present' ⊢
        cases present.symm.trans present'
        simpa only [Heap.connectionBodies, Heap.setConnectionBodies, Function.update_self]
          using consistent
      · rw [heap] at present' ⊢
        cases present.symm.trans present'
        simp only [Heap.connectionBodies, Heap.setConnectionBodies, Function.update_self]
        rw [nodes]
        exact erase_valid here
  | skip impl it i i' count grabTracked after b before present here heap critical =>
      refine .of_running critical (fun impl' present' => ?_) fun impl' present' => ?_
      · rw [heap] at present' ⊢
        exact rekeyed (current.consistent impl' present') (listed impl')
      · rw [heap] at present' ⊢
        cases present.symm.trans present'
        exact next_valid here
  | save impl it i count grabTracked after before present heap critical =>
      refine .of_saved critical (fun impl' present' => ?_) fun impl' present' => ?_
      · rw [heap] at present' ⊢
        cases present'
        exact rekeyed (current.consistent impl present) (listed impl)
      · rw [heap] at present' ⊢
        cases present'
        exact current.running it i count grabTracked after before impl present
  | connect impl it i count grabTracked arguments before present heap bodies connects critical =>
      have rekeyedList := rekeyed (current.consistent impl present) (listed impl)
      have keyed : w'.keyOf w.nextBody = groupKeyOf arguments := by
        unfold keyOf
        rw [bodies, BodyStore.newConnectionBody_new]
        rfl
      refine .of_saved critical (fun impl' present' => ?_) fun impl' present' => ?_
      · rw [heap] at present' ⊢
        cases present'
        simpa only [Heap.connectionBodies, Heap.setConnectionBodies, Heap.setGarbageCollectorIt,
          Function.update_self] using consistent_pushConnection order rekeyedList keyed
      · rw [heap] at present' ⊢
        cases present'
        simp only [Heap.connectionBodies, Heap.setConnectionBodies, Heap.setGarbageCollectorIt,
          Function.update_self]
        have valid := current.running it i count grabTracked _ before impl present
        exact pushConnection_valid valid arguments w.nextBody

/-! ### One node a body -/

/-- A body has at most one node in the current list. -/
def CurrentDistinct (w : World σ) : Prop :=
  ∀ impl, w.heap.impl = some impl → (w.heap.connectionBodies impl).list.values.Nodup

theorem pushConnection_values {list : GroupedList σ.Group BodyId}
    (arguments : ConnectArguments σ) (b : BodyId) :
    (pushConnection list arguments b).list.values.Perm (b :: list.list.values) := by
  unfold pushConnection
  split <;> exact (insertBefore_perm _ _ _).map Prod.snd

theorem CurrentDistinct.step (distinct : w.CurrentDistinct)
    (below : ∀ b, Listed w.heap b → b < w.nextBody) (effect : Effect w a w') : w'.CurrentDistinct := by
  intro impl' present'
  cases effect.listEffect with
  | keep current cleanup =>
      obtain ⟨impl, present, same, _⟩ := current impl' present'
      rw [same]
      exact distinct impl present
  | start impl it k count grabTracked after free present position heap critical =>
      rw [heap] at present' ⊢
      exact distinct impl' present'
  | copy impl grabTracked after present heap critical =>
      rw [heap] at present' ⊢
      cases present'
      have copied := distinct impl present
      simpa only [Heap.connectionBodies, Heap.copyConnectionBodies, Function.update_self,
        LinkedList.values, GroupedList.copy_nodes] using copied
  | erase impl it k k' count grabTracked after b list next before present here dead erased heap
      critical =>
      rw [heap] at present' ⊢
      have same : impl' = impl := Option.some.inj (present'.symm.trans present)
      subst same
      have shorter := (GroupedList.erase_some erased).1
      simp only [Heap.connectionBodies, Heap.setConnectionBodies, Function.update_self, shorter]
      exact (distinct impl' present).sublist (List.filter_sublist.map Prod.snd)
  | skip impl it k k' count grabTracked after b before present here heap critical =>
      rw [heap] at present' ⊢
      exact distinct impl' present'
  | save impl it k count grabTracked after before present heap critical =>
      rw [heap] at present' ⊢
      cases present'
      exact distinct impl present
  | connect impl it k count grabTracked arguments before present heap bodies connects critical =>
      rw [heap] at present' ⊢
      cases present'
      simp only [Heap.connectionBodies, Heap.setConnectionBodies, Heap.setGarbageCollectorIt,
        Function.update_self]
      refine (pushConnection_values arguments w.nextBody).nodup_iff.mpr ?_
      refine List.nodup_cons.mpr ⟨fun member => ?_, distinct impl present⟩
      exact absurd (below w.nextBody ⟨_, member⟩) (Nat.lt_irrefl _)

end World

end Signals2
