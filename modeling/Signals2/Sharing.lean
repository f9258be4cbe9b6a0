/-
Two levels of sharing: invocations and traversals hold invocation states, and
invocation states hold slot lists and combiners.

What a step may do to the heap and to the local copies of the shared state is
stated once, as `Change`.  From it follows that identities are never handed out
twice and that a cleanup runs only while nobody else holds the shared state.
-/

import Signals2.Library.IndexedLists
import Signals2.Effects

namespace Signals2

open LinkedLists

variable {σ : SignalTemplate}

/-- The two kinds of operations that keep a local copy of the shared state. -/
inductive ReaderKind where
  | invocation
  | traversal

namespace World

/-- The local copies of the shared state; `none` once it has been released. -/
def readers (w : World σ) : ReaderKind → List (Option StateId)
  | .invocation => w.invocations.map Invocation.localState
  | .traversal => w.traversals.map Traversal.localState

def shared (w : World σ) : Option StateId := w.heap.impl.map SignalImpl.sharedState

theorem shared_of_present {w : World σ} {impl : SignalImpl}
    (present : w.heap.impl = some impl) : w.shared = some impl.sharedState := by
  rw [shared, present]
  rfl

/-- A run of `nolock_cleanup_connections_from` is in progress. -/
def sweeping (w : World σ) : Bool :=
  match w.critical with
  | some (.cleanupConnections _ _ _ _ _) => true
  | _ => false

inductive ReaderChange (shared shared' : Option StateId) (before : List (Option StateId)) :
    List (Option StateId) → Prop
  | same : ReaderChange shared shared' before before
  | leave (n : Nat) : ReaderChange shared shared' before (before.set n none)
  | join (s : StateId) (current : shared = some s) (stays : shared' = some s) :
      ReaderChange shared shared' before (before ++ [some s])

inductive HeapChange (heap : Heap σ) (sweeping : Bool) (unique : StateId → Bool) :
    Action σ → Heap σ → Prop
  | same {a : Action σ} : HeapChange heap sweeping unique a heap
  | sweep {a : Action σ} (impl : SignalImpl) (list : GroupedList σ.Group BodyId)
      (it : Iterator) (running : sweeping = true) (present : heap.impl = some impl)
      (name : list.list.name = (heap.connectionBodies impl).list.name) :
      HeapChange heap sweeping unique a
        ((heap.setConnectionBodies impl list).setGarbageCollectorIt impl it)
  | copy {a : Action σ} (impl : SignalImpl) (present : heap.impl = some impl) :
      HeapChange heap sweeping unique a (heap.copyConnectionBodies impl)
  | assign (combiner : σ.Combiner) (impl : SignalImpl) (present : heap.impl = some impl)
      (alone : unique impl.sharedState = true) :
      HeapChange heap sweeping unique (.setCombiner combiner) (heap.assignCombiner impl combiner)
  | replace (combiner : σ.Combiner) (impl : SignalImpl) (present : heap.impl = some impl) :
      HeapChange heap sweeping unique (.setCombiner combiner) (heap.replaceCombiner impl combiner)
  | destroy : HeapChange heap sweeping unique .destroy { heap with impl := none }

structure Change (w : World σ) (a : Action σ) (w' : World σ) : Prop where
  heap : HeapChange w.heap w.sweeping w.unique a w'.heap
  readers : ∀ kind, ReaderChange w.shared w'.shared (w.readers kind) (w'.readers kind)
  -- a cleanup has been going on, or starts with a shared state of its own
  sweep : w'.sweeping = true →
    (∀ kind s, some s ∈ w'.readers kind → some s ∈ w.readers kind) ∧
      ∀ s, w'.shared = some s →
        w.shared = some s ∧ (w.sweeping = true ∨ w.unique s = true) ∨ s = w.heap.nextState

/-! ### What each step changes -/

variable {w w' : World σ} {a : Action σ}

theorem HeapChange.of_heap {heap heap' : Heap σ} {running : Bool} {unique : StateId → Bool}
    (same : heap' = heap) : HeapChange heap running unique a heap' := by
  rw [same]
  exact .same

theorem ReaderChange.of_eq {shared shared' : Option StateId}
    {before after : List (Option StateId)} (same : after = before) :
    ReaderChange shared shared' before after := by
  rw [same]
  exact .same

/-- A step that leaves every local copy alone. -/
theorem Change.of_heap (heap : HeapChange w.heap w.sweeping w.unique a w'.heap)
    (same : ∀ kind, w'.readers kind = w.readers kind)
    (sweep : w'.sweeping = true → ∀ s, w'.shared = some s →
      w.shared = some s ∧ (w.sweeping = true ∨ w.unique s = true) ∨ s = w.heap.nextState) :
    Change w a w' where
  heap := heap
  readers kind := .of_eq (same kind)
  sweep running := by
    refine ⟨?_, sweep running⟩
    intro kind s member
    rwa [same kind] at member

/-- A step that leaves the heap alone, too. -/
theorem Change.frame (heap : w'.heap = w.heap) (same : ∀ kind, w'.readers kind = w.readers kind)
    (quiet : w'.sweeping = false ∨ w'.sweeping = w.sweeping) : Change w a w' := by
  refine .of_heap (.of_heap heap) same fun running s current => ?_
  rw [shared, heap] at current
  refine .inl ⟨current, .inl ?_⟩
  rcases quiet with still | same
  · rw [still] at running
    cases running
  · rw [← same]
    exact running

/-- A step in which one local copy is released. -/
theorem Change.leave (heap : w'.heap = w.heap) (sweeping : w'.sweeping = w.sweeping)
    (readers : ∀ kind, w'.readers kind = w.readers kind ∨
      ∃ n, w'.readers kind = (w.readers kind).set n none) : Change w a w' where
  heap := .of_heap heap
  readers kind := by
    rcases readers kind with same | ⟨n, left⟩
    · exact .of_eq same
    · rw [left]
      exact .leave n
  sweep running := by
    refine ⟨fun kind s member => ?_, fun s current => .inl ⟨?_, .inl ?_⟩⟩
    · rcases readers kind with same | ⟨n, left⟩
      · rwa [same] at member
      · rw [left] at member
        rcases List.mem_or_eq_of_mem_set member with old | new
        · exact old
        · cases new
    · rwa [shared, heap] at current
    · rwa [sweeping] at running

theorem Change.set_invocation {u : World σ} {i : InvocationId} {inv inv' : Invocation σ}
    (heap : u.heap = w.heap) (invocations : u.invocations = w.invocations.set i inv')
    (traversals : u.traversals = w.traversals) (found : w.invocations[i]? = some inv)
    (same : inv'.localState = inv.localState) (quiet : u.sweeping = false ∨ u.sweeping = w.sweeping) :
    Change w a u := by
  refine .frame heap (fun kind => ?_) quiet
  cases kind with
  | invocation =>
      simp only [World.readers, invocations]
      exact IndexedLists.map_set_same found same
  | traversal => simp only [World.readers, traversals]

theorem Change.set_traversal {u : World σ} {t : TraversalId} {tr tr' : Traversal σ}
    (heap : u.heap = w.heap) (invocations : u.invocations = w.invocations)
    (traversals : u.traversals = w.traversals.set t tr') (found : w.traversals[t]? = some tr)
    (same : tr'.localState = tr.localState) (quiet : u.sweeping = false ∨ u.sweeping = w.sweeping) :
    Change w a u := by
  refine .frame heap (fun kind => ?_) quiet
  cases kind with
  | invocation => simp only [World.readers, invocations]
  | traversal =>
      simp only [World.readers, traversals]
      exact IndexedLists.map_set_same found same

@[simp] theorem sweeping_unlock (w : World σ) : w.unlock.sweeping = false := rfl

theorem counted_localState (inv : Invocation σ) (connected : Bool) :
    (counted inv connected).localState = inv.localState := by
  cases connected <;> rfl

private theorem swept_heap (impl : SignalImpl) (list : GroupedList σ.Group BodyId)
    (it : Iterator) (running : w.sweeping = true) (present : w.heap.impl = some impl)
    (name : list.list.name = (w.heap.connectionBodies impl).list.name) :
    HeapChange w.heap w.sweeping w.unique .section
      ((w.heap.setConnectionBodies impl list).setGarbageCollectorIt impl it) :=
  .sweep impl list it running present name

theorem Effect.change (effect : Effect w a w') : Change w a w' := by
  cases effect with
  | sweepStart impl it count grabTracked after free present unique position ready =>
      refine .of_heap .same (fun kind => by cases kind <;> rfl) fun _ s current => .inl ⟨current, ?_⟩
      have same : w.heap.impl.map SignalImpl.sharedState = some s := current
      rw [present] at same
      cases same
      exact .inr unique
  | copyAndSweep impl grabTracked after free present shared ready =>
      refine .of_heap (.copy impl present) (fun kind => by cases kind <;> rfl) fun _ s current => ?_
      cases current
      exact .inr rfl
  | assignCombiner combiner impl free present unique =>
      refine .of_heap (.assign combiner impl present unique) (fun kind => by cases kind <;> rfl) ?_
      simp [sweeping, setHeap, free]
  | replaceCombiner combiner impl free present shared =>
      refine .of_heap (.replace combiner impl present) (fun kind => by cases kind <;> rfl) ?_
      simp [sweeping, setHeap, free]
  | start impl free present shared =>
      exact {
        heap := .same
        readers := fun kind => by
          cases kind with
          | invocation =>
              simp only [readers, startInvocation, newInvocation, List.map_append, List.map_cons,
                List.map_nil]
              exact .join impl.sharedState (shared_of_present present) (shared_of_present present)
          | traversal => exact .same
        sweep := by simp [sweeping, startInvocation, free] }
  | traverse impl kind free present =>
      exact {
        heap := .same
        readers := fun reader => by
          cases reader with
          | invocation => exact .same
          | traversal =>
              simp only [readers, newTraversal, List.map_append, List.map_cons, List.map_nil]
              exact .join impl.sharedState (shared_of_present present) (shared_of_present present)
        sweep := by simp [sweeping, free] }
  | destroy impl present =>
      refine .of_heap .destroy (fun kind => by cases kind <;> rfl) fun _ s current => ?_
      cases current
  | grabStart client b free ready => exact .frame rfl (fun kind => by cases kind <;> rfl) (.inl rfl)
  | promote client b p rest critical alive =>
      exact .frame rfl (fun kind => by cases kind <;> rfl) (.inl rfl)
  | keep client b p rest locked critical =>
      unfold insertLocked
      cases client with
      | connected => exact .frame rfl (fun kind => by cases kind <;> rfl) (.inl rfl)
      | traversal t => exact .frame rfl (fun kind => by cases kind <;> rfl) (.inl rfl)
      | iterator i =>
          dsimp only
          split
          · exact .frame rfl (fun kind => by cases kind <;> rfl) (.inl rfl)
          · rename_i inv found
            exact .set_invocation rfl rfl rfl found rfl (.inl rfl)
  | answer b todo locked u critical ended =>
      obtain ⟨store, rfl⟩ := ended.store
      exact .frame rfl (fun kind => by cases kind <;> rfl) (.inl rfl)
  | count t b todo locked u tr critical ended found =>
      obtain ⟨store, rfl⟩ := ended.store
      exact .set_traversal rfl rfl rfl found rfl (.inl rfl)
  | commit i b locked inv critical found connected unblocked =>
      exact .set_invocation rfl rfl rfl found rfl (.inl rfl)
  | skip i b todo locked u inv critical ended found blocked =>
      obtain ⟨store, rfl⟩ := ended.store
      exact .set_invocation rfl rfl rfl found (counted_localState inv _) (.inl rfl)
  | lost client b todo locked u critical ended missing =>
      obtain ⟨store, rfl⟩ := ended.store
      exact .frame rfl (fun kind => by cases kind <;> rfl) (.inl rfl)
  | contains t b weakPimpl pimpl locked u tr critical tested found =>
      obtain ⟨store, rfl⟩ := tested_store tested
      exact .set_traversal rfl rfl rfl found rfl (.inl rfl)
  | containsLost t b weakPimpl pimpl locked u critical tested missing =>
      obtain ⟨store, rfl⟩ := tested_store tested
      exact .frame rfl (fun kind => by cases kind <;> rfl) (.inl rfl)
  | sweepErase it i count grabTracked after impl b list next critical present inside more here
      dead erased =>
      obtain ⟨store, same⟩ := checkExpired_store w grabTracked b
      have running : w.sweeping = true := by simp only [sweeping, critical]
      rw [same]
      have name : list.list.name = (w.heap.connectionBodies impl).list.name := by
        rw [(GroupedList.erase_some erased).1]
        rfl
      have swept := swept_heap impl list impl.garbageCollectorIt running present name
      refine .of_heap ?_ (fun kind => by cases kind <;> rfl) fun _ s current =>
        .inl ⟨current, .inl running⟩
      simpa only [enter, setHeap, Heap.setConnectionBodies, Heap.setGarbageCollectorIt,
        present] using swept
  | sweepSkip it i count grabTracked after impl b critical present inside more here connected =>
      obtain ⟨store, same⟩ := checkExpired_store w grabTracked b
      rw [same]
      exact .frame rfl (fun kind => by cases kind <;> rfl)
        (.inr (by simp [sweeping, critical, enter]))
  | sweepEnd it i count grabTracked after impl critical present done =>
      have running : w.sweeping = true := by simp only [sweeping, critical]
      have saved : HeapChange w.heap w.sweeping w.unique .section
          (w.heap.setGarbageCollectorIt impl it) := by
        have swept := swept_heap impl
          (w.heap.connectionBodies impl) it running present rfl
        simpa only [Heap.setConnectionBodies, Heap.connectionBodies, Function.update_eq_self]
          using swept
      unfold finishCleanup
      cases after with
      | connect arguments =>
          have swept := swept_heap impl
            (pushConnection (w.heap.connectionBodies impl) arguments w.nextBody) it running
            present (pushConnection_name _ arguments w.nextBody)
          refine .of_heap ?_ (fun kind => by cases kind <;> rfl) fun running => by cases running
          simpa only [unlock, insertConnection, setHeap, Heap.setConnectionBodies,
            Heap.setGarbageCollectorIt, Heap.connectionBodies] using swept
      | invoke =>
          exact {
            heap := saved
            readers := fun kind => by
              cases kind with
              | invocation =>
                  simp only [readers, startInvocation, newInvocation, unlock, setHeap, List.map_append,
                    List.map_cons, List.map_nil]
                  exact .join impl.sharedState (shared_of_present present) rfl
              | traversal => exact .same
            sweep := fun running => by cases running }
      | forceCleanup i =>
          dsimp only
          split
          · exact .of_heap saved (fun kind => by cases kind <;> rfl) fun running => by cases running
          · rename_i inv found
            refine .of_heap saved (fun kind => ?_) fun running => by cases running
            cases kind with
            | invocation => exact IndexedLists.map_set_same found rfl
            | traversal => rfl
  | disconnect b free alive => exact .frame rfl (fun kind => by cases kind <;> rfl) (.inl rfl)
  | throwExpired i inv b free found phase here =>
      exact .set_invocation rfl rfl rfl found rfl (.inl rfl)
  | walkDisconnect t tr b free found inside here targets =>
      exact .set_traversal rfl rfl rfl found rfl (.inl rfl)
  | move i inv inv' found move =>
      cases move with
      | releaseState phase cleared =>
          refine .leave rfl rfl fun kind => ?_
          cases kind with
          | invocation => exact .inr ⟨i, List.map_set ..⟩
          | traversal => exact .inl rfl
      | _ => exact .set_invocation rfl rfl rfl found rfl (.inr rfl)
  | reachEnd i inv free found phase atEnd callable =>
      exact .set_invocation rfl rfl rfl found rfl (.inl rfl)
  | destroyCache i inv free found phase active =>
      exact .set_invocation rfl rfl rfl found rfl (.inl rfl)
  | walk t tr tr' found walk =>
      cases walk with
      | finish progress finished =>
          refine .leave rfl rfl fun kind => ?_
          cases kind with
          | invocation => exact .inl rfl
          | traversal => exact .inr ⟨t, List.map_set ..⟩
      | _ => exact .set_traversal rfl rfl rfl found rfl (.inr rfl)
  | containsStart t tr b weakPimpl pimpl free found inside here kind connected slot held wrapped =>
      exact .frame rfl (fun kind => by cases kind <;> rfl) (.inl rfl)
  | outside w' outside =>
      refine .frame outside.heap (fun kind => ?_) ?_
      · cases kind with
        | invocation => simp only [readers, outside.invocations]
        | traversal => simp only [readers, outside.traversals]
      · right
        simp only [sweeping, outside.critical]
  | fault u f cause u_eq =>
      rcases u_eq with rfl | ⟨grabTracked, b, rfl⟩
      · exact .frame rfl (fun kind => by cases kind <;> rfl) (.inr rfl)
      · obtain ⟨store, same⟩ := checkExpired_store w grabTracked b
        rw [same]
        exact .frame rfl (fun kind => by cases kind <;> rfl) (.inr rfl)

/-! ### Identities are not handed out twice -/

structure HeapBelow (heap : Heap σ) : Prop where
  impl : ∀ impl, heap.impl = some impl → impl.sharedState < heap.nextState
  lists : ∀ s < heap.nextState, (heap.states s).connectionBodies < heap.nextList
  combiners : ∀ s < heap.nextState, (heap.states s).combiner < heap.nextCombiner
  names : ∀ l, (heap.lists l).list.name = l

theorem HeapChange.grows {heap heap' : Heap σ} {running : Bool} {unique : StateId → Bool}
    (change : HeapChange heap running unique a heap') : heap.nextState ≤ heap'.nextState := by
  cases change <;>
    simp [Heap.setConnectionBodies, Heap.setGarbageCollectorIt, Heap.copyConnectionBodies,
      Heap.assignCombiner, Heap.replaceCombiner]

theorem HeapChange.present {heap heap' : Heap σ} {running : Bool} {unique : StateId → Bool}
    (change : HeapChange heap running unique a heap') (stays : a ≠ .destroy)
    (present : heap.impl ≠ none) : heap'.impl ≠ none := by
  cases change with
  | same => exact present
  | sweep impl list it running old name => exact fun gone => by cases gone
  | copy impl old => exact fun gone => by cases gone
  | assign combiner impl old alone => exact present
  | replace combiner impl old => exact fun gone => by cases gone
  | destroy => exact absurd rfl stays

theorem HeapChange.states {heap heap' : Heap σ} {running : Bool} {unique : StateId → Bool}
    (change : HeapChange heap running unique a heap') {s : StateId} (below : s < heap.nextState) :
    heap'.states s = heap.states s := by
  have apart : s ≠ heap.nextState := Nat.ne_of_lt below
  cases change with
  | same => rfl
  | sweep impl list it running present name => rfl
  | copy impl present => exact Function.update_of_ne apart _ _
  | assign combiner impl present alone => rfl
  | replace combiner impl present => exact Function.update_of_ne apart _ _
  | destroy => rfl

private theorem update_name {heap : Heap σ} (named : HeapBelow heap) {l : ListId}
    {list : GroupedList σ.Group BodyId} (name : list.list.name = l) (other : ListId) :
    (Function.update heap.lists l list other).list.name = other := by
  by_cases same : other = l
  · rw [same, Function.update_self, name]
  · rw [Function.update_of_ne same]
    exact named.names other

private theorem below_of_succ {s bound : Nat} (below : s < bound + 1) (apart : s ≠ bound) :
    s < bound := by
  omega

theorem HeapBelow.step {heap heap' : Heap σ} {running : Bool} {unique : StateId → Bool}
    (below : HeapBelow heap) (change : HeapChange heap running unique a heap') :
    HeapBelow heap' := by
  cases change with
  | same => exact below
  | sweep impl list it running present name =>
      exact {
        impl := fun other found => by
          cases found
          exact below.impl impl present
        lists := below.lists
        combiners := below.combiners
        names := update_name below (name.trans (below.names _)) }
  | copy impl present =>
      have old := below.impl impl present
      exact {
        impl := fun other found => by
          cases found
          exact Nat.lt_succ_self _
        lists := by
          intro s bound
          by_cases fresh : s = heap.nextState
          · simp [Heap.copyConnectionBodies, fresh]
          · have known := below.lists s (below_of_succ bound fresh)
            simpa only [Heap.copyConnectionBodies, Function.update_of_ne fresh] using
              Nat.lt_succ_of_lt known
        combiners := by
          intro s bound
          by_cases fresh : s = heap.nextState
          · simpa [Heap.copyConnectionBodies, fresh] using below.combiners _ old
          · have known := below.combiners s (below_of_succ bound fresh)
            simpa only [Heap.copyConnectionBodies, Function.update_of_ne fresh] using known
        names := update_name below (GroupedList.copy_name _ _) }
  | assign combiner impl present alone => exact { below with }
  | replace combiner impl present =>
      have old := below.impl impl present
      exact {
        impl := fun other found => by
          cases found
          exact Nat.lt_succ_self _
        lists := by
          intro s bound
          by_cases fresh : s = heap.nextState
          · simpa [Heap.replaceCombiner, fresh] using below.lists _ old
          · have known := below.lists s (below_of_succ bound fresh)
            simpa only [Heap.replaceCombiner, Function.update_of_ne fresh] using known
        combiners := by
          intro s bound
          by_cases fresh : s = heap.nextState
          · simp [Heap.replaceCombiner, fresh]
          · have known := below.combiners s (below_of_succ bound fresh)
            simpa only [Heap.replaceCombiner, Function.update_of_ne fresh] using
              Nat.lt_succ_of_lt known
        names := below.names }
  | destroy => exact { below with impl := fun impl none => by cases none }

structure Sharing (w : World σ) : Prop where
  heap : HeapBelow w.heap
  readers : ∀ kind s, some s ∈ w.readers kind → s < w.heap.nextState
  -- a cleanup runs on a state that no invocation and no traversal holds
  exclusive : w.sweeping = true → ∀ s, w.shared = some s → ∀ kind, some s ∉ w.readers kind

theorem construct_sharing (combiner : σ.Combiner)
    (defaultCompare groupCompare : σ.Group → σ.Group → Bool) (owners : ObjectId → Nat) :
    (World.construct combiner defaultCompare groupCompare owners).Sharing where
  heap :=
    { impl := fun impl present => by
        cases present
        exact Nat.zero_lt_one
      lists := fun s below => Nat.zero_lt_one
      combiners := fun s below => Nat.zero_lt_one
      names := fun l => rfl }
  readers kind s member := by cases kind <;> cases member
  exclusive running := by cases running

theorem not_reader_of_unique {s : StateId} (current : w.shared = some s)
    (alone : w.unique s = true) (kind : ReaderKind) : some s ∉ w.readers kind := by
  intro member
  have own : w.heap.impl.map SignalImpl.sharedState = some s := current
  simp only [unique, useCount, own, if_true, decide_eq_true_eq] at alone
  cases kind with
  | invocation =>
      obtain ⟨inv, inside, same⟩ := List.mem_map.mp member
      have counted : 0 < w.invocations.countP (fun inv => inv.localState = some s) :=
        List.countP_pos_iff.mpr ⟨inv, inside, by simpa using same⟩
      omega
  | traversal =>
      obtain ⟨tr, inside, same⟩ := List.mem_map.mp member
      have counted : 0 < w.traversals.countP (fun tr => tr.localState = some s) :=
        List.countP_pos_iff.mpr ⟨tr, inside, by simpa using same⟩
      omega

theorem ReaderChange.mem {shared shared' : Option StateId}
    {before after : List (Option StateId)} (change : ReaderChange shared shared' before after)
    {s : StateId} (member : some s ∈ after) :
    some s ∈ before ∨ shared = some s ∧ shared' = some s := by
  cases change with
  | same => exact .inl member
  | leave n =>
      rcases List.mem_or_eq_of_mem_set member with old | new
      · exact .inl old
      · contradiction
  | join s' current stays =>
      rcases List.mem_append.mp member with old | new
      · exact .inl old
      · cases List.mem_singleton.mp new
        exact .inr ⟨current, stays⟩

theorem Sharing.sharedBelow (sharing : w.Sharing) {s : StateId} (current : w.shared = some s) :
    s < w.heap.nextState := by
  obtain ⟨impl, present, rfl⟩ := Option.map_eq_some_iff.mp current
  exact sharing.heap.impl impl present

theorem Sharing.step (sharing : w.Sharing) (change : Change w a w') : w'.Sharing where
  heap := sharing.heap.step change.heap
  readers kind s member := by
    have grows := change.heap.grows
    rcases (change.readers kind).mem member with old | current
    · exact Nat.lt_of_lt_of_le (sharing.readers kind s old) grows
    · exact Nat.lt_of_lt_of_le (sharing.sharedBelow current.1) grows
  exclusive running s current kind member := by
    obtain ⟨kept, origin⟩ := change.sweep running
    have old := kept kind s member
    rcases origin s current with ⟨same, continues | alone⟩ | fresh
    · exact sharing.exclusive continues s same kind old
    · exact not_reader_of_unique same alone kind old
    · exact Nat.ne_of_lt (sharing.readers kind s old) fresh

end World

end Signals2
