/-
The critical sections of `signal_impl`, of the slot call iterator and of the
traversals.  A section that promotes weak pointers or sweeps the list takes
several steps, so that owners outside the library can interleave with it; each
of its steps is one function here.  A section without such a step is a single
function that locks and unlocks.
-/

import Signals2.World

namespace Signals2

open LinkedLists

variable {σ : SignalTemplate}

namespace Heap

/-- The state of `signal_impl` after its constructor. -/
def construct (combiner : σ.Combiner) (defaultCompare groupCompare : σ.Group → σ.Group → Bool) :
    Heap σ :=
  { impl := some { sharedState := 0, garbageCollectorIt := { owner := 0, node := none } }
    states := fun _ => { connectionBodies := 0, combiner := 0 }
    lists := fun name => GroupedList.construct name defaultCompare groupCompare
    combiners := fun _ => combiner
    nextState := 1
    nextList := 1
    nextCombiner := 1 }

def connectionBodies (heap : Heap σ) (impl : SignalImpl) : GroupedList σ.Group BodyId :=
  heap.lists (heap.states impl.sharedState).connectionBodies

/-- `_shared_state = make_shared<invocation_state>(*_shared_state, connection_bodies)`:
a new state with a copy of the list and the combiner of the old state. -/
def copyConnectionBodies (heap : Heap σ) (impl : SignalImpl) : Heap σ :=
  { heap with
    impl := some { impl with sharedState := heap.nextState }
    states := Function.update heap.states heap.nextState
      { connectionBodies := heap.nextList
        combiner := (heap.states impl.sharedState).combiner }
    lists := Function.update heap.lists heap.nextList
      ((heap.connectionBodies impl).copy heap.nextList)
    nextState := heap.nextState + 1
    nextList := heap.nextList + 1 }

/-- `_shared_state->combiner() = combiner_arg`. -/
def assignCombiner (heap : Heap σ) (impl : SignalImpl) (combiner : σ.Combiner) : Heap σ :=
  { heap with
    combiners :=
      Function.update heap.combiners (heap.states impl.sharedState).combiner combiner }

/-- `_shared_state = make_shared<invocation_state>(*_shared_state, combiner_arg)`:
a new state with the list of the old state and a new combiner. -/
def replaceCombiner (heap : Heap σ) (impl : SignalImpl) (combiner : σ.Combiner) : Heap σ :=
  { heap with
    impl := some { impl with sharedState := heap.nextState }
    states := Function.update heap.states heap.nextState
      { connectionBodies := (heap.states impl.sharedState).connectionBodies
        combiner := heap.nextCombiner }
    combiners := Function.update heap.combiners heap.nextCombiner combiner
    nextState := heap.nextState + 1
    nextCombiner := heap.nextCombiner + 1 }

def setConnectionBodies (heap : Heap σ) (impl : SignalImpl)
    (list : GroupedList σ.Group BodyId) : Heap σ :=
  { heap with
    lists := Function.update heap.lists (heap.states impl.sharedState).connectionBodies list }

def setGarbageCollectorIt (heap : Heap σ) (impl : SignalImpl) (it : Iterator) : Heap σ :=
  { heap with impl := some { impl with garbageCollectorIt := it } }

theorem copyConnectionBodies_new (heap : Heap σ) (impl : SignalImpl) :
    (heap.copyConnectionBodies impl).lists heap.nextList =
      (heap.connectionBodies impl).copy heap.nextList := by
  simp [copyConnectionBodies]

end Heap

namespace World

variable (w : World σ)

/-- The key under which a new connection is listed. -/
def groupKeyOf (arguments : ConnectArguments σ) : GroupKey σ.Group :=
  match arguments.group with
  | some group => .groupedSlots group
  | none =>
      match arguments.position with
      | .atBack => .backUngroupedSlots
      | .atFront => .frontUngroupedSlots

/-! ### Cleanup -/

/-- `nolock_cleanup_connections`: a few connections from the saved position on. -/
def nolockCleanupConnections (impl : SignalImpl) (grabTracked : Bool) (count : Nat)
    (after : AfterCleanup σ) : World σ :=
  let list := w.heap.connectionBodies impl
  let begin :=
    if impl.garbageCollectorIt = list.past then list.begin else impl.garbageCollectorIt
  w.enter (.cleanupConnections begin 0 count grabTracked after)

/-- `nolock_force_unique_connection_list`. -/
def nolockForceUniqueConnectionList (impl : SignalImpl) (after : AfterCleanup σ) : World σ :=
  if w.unique impl.sharedState = false then
    let copied := w.setHeap (w.heap.copyConnectionBodies impl)
    copied.enter (.cleanupConnections
      (copied.heap.lists w.heap.nextList).begin 0 0 true after)
  else w.nolockCleanupConnections impl true 2 after

/-- `push_back` or `push_front`. -/
def pushConnection (list : GroupedList σ.Group BodyId) (arguments : ConnectArguments σ)
    (b : BodyId) : GroupedList σ.Group BodyId :=
  match arguments.position with
  | .atBack => list.pushBack (groupKeyOf arguments) b
  | .atFront => list.pushFront (groupKeyOf arguments) b

/-- The new body and its list node, at the end of `nolock_connect`. -/
def insertConnection (impl : SignalImpl) (arguments : ConnectArguments σ) : World σ :=
  { w with
    toBodyStore := w.toBodyStore.newConnectionBody arguments.slot (groupKeyOf arguments)
    heap := w.heap.setConnectionBodies impl
      (pushConnection (w.heap.connectionBodies impl) arguments w.nextBody) }

/-- The locals of a new invocation.  The constructor of its slot call iterator
returns at once when the list is empty. -/
def newInvocation (impl : SignalImpl) : Invocation σ :=
  let list := w.heap.connectionBodies impl
  { localState := some impl.sharedState
    phase := if list.begin = list.past then .ready else .searching
    iter := list.begin
    callableIter := list.past
    result := none
    trackedPtrs := []
    connectedSlotCount := 0
    disconnectedSlotCount := 0
    activeSlot := none }

def startInvocation (impl : SignalImpl) : World σ :=
  { w with invocations := w.invocations ++ [w.newInvocation impl] }

/-- The part of the list that a traversal walks: the range of one group, or all. -/
def traversalBounds (list : GroupedList σ.Group BodyId) :
    TraversalKind σ → Iterator × Iterator
  | .disconnectGroup group =>
      (list.lowerBound (.groupedSlots group), list.upperBound (.groupedSlots group))
  | _ => (list.begin, list.past)

/-- The locals of a new traversal, with the state that `get_readable_state` returns. -/
def newTraversal (impl : SignalImpl) (kind : TraversalKind σ) : Traversal σ :=
  let bounds := traversalBounds (w.heap.connectionBodies impl) kind
  { localState := some impl.sharedState
    kind := kind
    it := bounds.1
    endIt := bounds.2
    count := 0 }

/-- The loop of `nolock_cleanup_connections_from` has ended at `it`. -/
def finishCleanup (impl : SignalImpl) (it : Iterator) (after : AfterCleanup σ) : World σ :=
  let saved := w.setHeap (w.heap.setGarbageCollectorIt impl it)
  let impl' := { impl with garbageCollectorIt := it }
  match after with
  | .connect arguments => (saved.insertConnection impl' arguments).unlock
  | .invoke => (saved.startInvocation impl').unlock
  | .forceCleanup i =>
      match w.invocations[i]? with
      | none => saved.unlock
      | some inv => (saved.setInvocation i { inv with phase := .destructing }).unlock

/-- The expiry check at the start of a round, when `grab_tracked` asks for it. -/
def checkExpired (grabTracked : Bool) (b : BodyId) : World σ :=
  if grabTracked then w.disconnectExpiredSlot b else w

/-- One round of the loop of `nolock_cleanup_connections_from`. -/
def cleanupStep (it : Iterator) (i count : Nat) (grabTracked : Bool)
    (after : AfterCleanup σ) : World σ :=
  match w.heap.impl with
  | none => w.fail .destroyedImpl
  | some impl =>
      let list := w.heap.connectionBodies impl
      if it ≠ list.past ∧ (count = 0 ∨ i < count) then
        match list.list.value? it with
        | none => w.fail .danglingIterator
        | some b =>
            let checked := w.checkExpired grabTracked b
            if (checked.bodies b).connected = false then
              match list.erase (checked.bodies b).groupKey it with
              | none => checked.fail .eraseAssertion
              | some (list', next) =>
                  (checked.setHeap (w.heap.setConnectionBodies impl list')).enter
                    (.cleanupConnections next (i + 1) count grabTracked after)
            else
              checked.enter
                (.cleanupConnections (list.list.next it) (i + 1) count grabTracked after)
      else w.finishCleanup impl it after

theorem finishCleanup_critical (impl : SignalImpl) (it : Iterator) (after : AfterCleanup σ) :
    (w.finishCleanup impl it after).critical = none := by
  unfold finishCleanup
  cases after with
  | connect arguments => rfl
  | invoke => rfl
  | forceCleanup i =>
      dsimp only
      split <;> rfl

theorem finishCleanup_fault (impl : SignalImpl) (it : Iterator) (after : AfterCleanup σ) :
    (w.finishCleanup impl it after).fault = w.fault := by
  unfold finishCleanup
  cases after with
  | connect arguments => rfl
  | invoke => rfl
  | forceCleanup i =>
      dsimp only
      split <;> rfl

theorem pushConnection_name (list : GroupedList σ.Group BodyId)
    (arguments : ConnectArguments σ) (b : BodyId) :
    (pushConnection list arguments b).list.name = list.list.name := by
  unfold pushConnection
  split <;> rfl

/-! ### Grabbing tracked objects -/

/-- What the client does with the mutex still locked after the objects have been
grabbed or the grab has failed. -/
def finishGrab (client : GrabClient) (b : BodyId) : World σ :=
  match client with
  | .connected =>
      { w with
        returned := (b, (w.bodies b).connected) :: w.returned
        trash := w.trash ++ [Leftover.body b] }.unlock
  | .traversal t =>
      match w.traversals[t]? with
      | none => w.unlock
      | some tr =>
          (w.setTraversal t
            { tr with
              it := w.iteratorAfter tr.localState tr.it
              count := if (w.bodies b).connected then tr.count + 1 else tr.count }).unlock
  | .iterator i =>
      match w.invocations[i]? with
      | none => w.unlock
      | some inv =>
          let counted :=
            if (w.bodies b).connected then
              { inv with connectedSlotCount := inv.connectedSlotCount + 1 }
            else { inv with disconnectedSlotCount := inv.disconnectedSlotCount + 1 }
          if w.nolockNograbBlocked b = false then
            -- `set_callable_iter(lock, iter)`, then leave the loop
            ((w.setActiveSlot inv.activeSlot (some b)).setInvocation i
              { counted with
                callableIter := inv.iter
                activeSlot := some b
                phase := .ready }).unlock
          else
            (w.setInvocation i
              { counted with iter := w.iteratorAfter inv.localState inv.iter }).unlock

/-- `*inserter++ = locked_object`. -/
def insertLocked (client : GrabClient) (locked : Option ObjectId) : World σ :=
  match client with
  | .iterator i =>
      match w.invocations[i]? with
      | none => w
      | some inv => w.setInvocation i { inv with trackedPtrs := inv.trackedPtrs ++ [locked] }
  | _ => w

/-- One step of the loop of `nolock_grab_tracked_objects`: the promotion with
its expiry test, or the insertion that ends with `locked_object` destroyed. -/
def grabStep (client : GrabClient) (b : BodyId) (todo : List VoidWeakPtr)
    (lockedObject : Option (Option ObjectId)) : World σ :=
  match todo with
  | [] => w.finishGrab client b
  | p :: rest =>
      match lockedObject with
      | none =>
          if w.expired p then (w.nolockDisconnect b).finishGrab client b
          else w.enter (.grabTrackedObjects client b todo (some (w.lockWeakPtr p)))
      | some locked =>
          (w.insertLocked client locked).enter (.grabTrackedObjects client b rest none)

/-- `weak_signal::contains` after its promotion: the comparison, and the end of
the promoted pointer's life. -/
def containsStep (t : TraversalId) (b : BodyId) (pimpl : ObjectId)
    (locked : Option ObjectId) : World σ :=
  let tested := if locked = some pimpl then w.nolockDisconnect b else w
  match w.traversals[t]? with
  | none => tested.unlock
  | some tr =>
      (tested.setTraversal t { tr with it := w.iteratorAfter tr.localState tr.it }).unlock

/-- One step of the client that holds the mutex. -/
def sectionStep : Option (World σ) :=
  match w.critical with
  | none => none
  | some (.grabTrackedObjects client b todo locked) => some (w.grabStep client b todo locked)
  | some (.contains t b _ pimpl locked) => some (w.containsStep t b pimpl locked)
  | some (.cleanupConnections it i count grabTracked after) =>
      some (w.cleanupStep it i count grabTracked after)

/-- The start of a call of `nolock_grab_tracked_objects` with the mutex locked. -/
def enterGrab (client : GrabClient) (b : BodyId) : World σ :=
  w.enter (.grabTrackedObjects client b (w.bodies b).trackedObjects none)

end World

end Signals2
