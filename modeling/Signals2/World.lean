/-
The state of one signal and everything that touches it: its heap of shared
slot lists, combiners and connection bodies, the invocations and list
traversals in progress, the mutex with the critical section that holds it, and
the owners of tracked objects outside the library.

Use counts are not stored.  A shared pointer is unique, a weak pointer expired,
a body alive when the owners recorded here say so.
-/

import Signals2.ConnectionBody

namespace Signals2

open LinkedLists

abbrev StateId := Nat
abbrev ListId := Nat
abbrev CombinerId := Nat
abbrev InvocationId := Nat
abbrev TraversalId := Nat
abbrev BlockId := Nat

structure InvocationState where
  connectionBodies : ListId
  combiner : CombinerId

structure SignalImpl where
  sharedState : StateId
  garbageCollectorIt : Iterator

/-- What `boost::make_shared` and `new` have handed out for the signal.  An
entry is meaningful below the counter of its kind. -/
structure Heap (σ : SignalTemplate) where
  impl : Option SignalImpl
  states : StateId → InvocationState
  lists : ListId → GroupedList σ.Group BodyId
  combiners : CombinerId → σ.Combiner
  nextState : Nat
  nextList : Nat
  nextCombiner : Nat

/-- Where an invocation stands.  `searching` is the loop of
`lock_next_callable` with the mutex free, `ready` is the combiner in control,
`running` is a slot function being executed; the last four are the destructors
that end the invocation. -/
inductive Phase where
  | searching
  | ready
  | running
  | janitor
  | destructing
  | releasing
  | done
deriving DecidableEq, Repr

/-- The locals of one `signal_impl::operator()`: the shared state it copied,
the slot call iterator and the iterator cache.  The two counts of the cache are `unsigned`
in the source; they wrap only for a list of 2^32 connections. -/
structure Invocation (σ : SignalTemplate) where
  localState : Option StateId
  phase : Phase
  iter : Iterator
  callableIter : Iterator
  result : Option σ.Result
  trackedPtrs : List (Option ObjectId)
  connectedSlotCount : Nat
  disconnectedSlotCount : Nat
  activeSlot : Option BodyId

/-- The argument of the template `disconnect`: a functor, which compares by an
equality the user chooses, or another signal. -/
inductive SlotArgument (Function : Type) where
  | functor (equal : Function → Bool)
  | signal (pimpl : ObjectId)

inductive TraversalKind (σ : SignalTemplate) where
  | disconnectAllSlots
  | disconnectGroup (group : σ.Group)
  | doDisconnect (slot : SlotArgument σ.Function)
  | numSlots
  | empty

/-- A member function of the signal that walks the list without holding the
mutex in between. -/
structure Traversal (σ : SignalTemplate) where
  localState : Option StateId
  kind : TraversalKind σ
  it : Iterator
  endIt : Iterator
  count : Nat

/-- `empty` returns at the first connected slot. -/
def Traversal.answered {σ : SignalTemplate} (tr : Traversal σ) : Bool :=
  match tr.kind with
  | .empty => 0 < tr.count
  | _ => false

structure SharedConnectionBlock where
  weakConnectionBody : Option BodyId
  blocker : Option BlockerId
deriving DecidableEq, Repr

inductive ConnectPosition where
  | atBack
  | atFront
deriving DecidableEq, Repr

structure ConnectArguments (σ : SignalTemplate) where
  group : Option σ.Group
  slot : Slot σ
  position : ConnectPosition

/-- Who runs `nolock_grab_tracked_objects`, hence where the promoted pointers
go: the iterator of an invocation keeps them, the others discard them. -/
inductive GrabClient where
  | iterator (i : InvocationId)
  | connected
  | traversal (t : TraversalId)
deriving DecidableEq, Repr

/-- What follows a run of `nolock_cleanup_connections_from`. -/
inductive AfterCleanup (σ : SignalTemplate) where
  | connect (arguments : ConnectArguments σ)
  | invoke
  | forceCleanup (i : InvocationId)

/-- The rest of the critical section whose client holds the mutex. -/
inductive Section (σ : SignalTemplate) where
  | grabTrackedObjects (client : GrabClient) (body : BodyId) (todo : List VoidWeakPtr)
      (lockedObject : Option (Option ObjectId))
  | contains (t : TraversalId) (body : BodyId) (weakPimpl pimpl : ObjectId)
      (locked : Option ObjectId)
  | cleanupConnections (it : Iterator) (i count : Nat) (grabTracked : Bool)
      (after : AfterCleanup σ)

/-- What an operation still has to release: the slot object that its lock's
garbage kept, or the body that a connection object promoted. -/
inductive Leftover where
  | slot (b : BodyId)
  | body (b : BodyId)
deriving DecidableEq, Repr

/-- `trash` are the references of operations that have not returned.  `returned`
lists the answers of `connection::connected`. -/
structure World (σ : SignalTemplate) extends BodyStore σ where
  heap : Heap σ
  invocations : List (Invocation σ)
  traversals : List (Traversal σ)
  critical : Option (Section σ)
  trash : List Leftover
  owners : ObjectId → Nat
  blocks : List SharedConnectionBlock
  nextBlocker : Nat
  returned : List (BodyId × Bool)

/-! ### Owners -/

namespace World

variable {σ : SignalTemplate} (w : World σ)

/-- The use count of an invocation state: the signal's own pointer and the
local copies of invocations and traversals. -/
def useCount (s : StateId) : Nat :=
  (if w.heap.impl.map SignalImpl.sharedState = some s then 1 else 0) +
    w.invocations.countP (fun inv => inv.localState = some s) +
    w.traversals.countP (fun tr => tr.localState = some s)

def unique (s : StateId) : Bool := w.useCount s = 1

/-- The promoted pointer of the current critical section. -/
def lockedObject : Option ObjectId :=
  match w.critical with
  | some (.grabTrackedObjects _ _ _ (some locked)) => locked
  | some (.contains _ _ _ _ locked) => locked
  | _ => none

/-- Some strong reference to the object exists. -/
def owned (o : ObjectId) : Bool :=
  0 < w.owners o ||
    w.invocations.any (fun inv => inv.trackedPtrs.contains (some o)) ||
    w.lockedObject == some o

def expired (p : VoidWeakPtr) : Bool := !w.owned p.object

/-- `lock_weak_ptr_visitor`. -/
def lockWeakPtr (p : VoidWeakPtr) : Option ObjectId :=
  if p.promotable && w.owned p.object then some p.object else none

def blockerAlive (x : BlockerId) : Bool :=
  w.blocks.any fun block => block.blocker == some x

/-- `connection_body_base::blocked`. -/
def blocked (b : BodyId) : Bool :=
  match (w.bodies b).weakBlocker with
  | none => false
  | some x => w.blockerAlive x

def nolockNograbBlocked (b : BodyId) : Bool :=
  (w.bodies b).connected = false || w.blocked b

/-- `slot().expired()`. -/
def slotExpired (b : BodyId) : Bool :=
  (w.bodies b).trackedObjects.any w.expired

/-- The invocation states that something owns. -/
def liveStates : List StateId :=
  (w.heap.impl.map SignalImpl.sharedState).toList ++
    w.invocations.filterMap Invocation.localState ++
    w.traversals.filterMap Traversal.localState

def listOf (s : StateId) : GroupedList σ.Group BodyId :=
  w.heap.lists (w.heap.states s).connectionBodies

/-- The body at a position of the list that a local copy of the shared state has. -/
def bodyAt (localState : Option StateId) (it : Iterator) : Option BodyId :=
  localState.bind fun s => (w.listOf s).list.value? it

/-- The position after it. -/
def iteratorAfter (localState : Option StateId) (it : Iterator) : Iterator :=
  match localState with
  | none => it
  | some s => (w.listOf s).list.next it

/-- The invocation is inside `nolock_grab_tracked_objects`. -/
def grabbing (i : InvocationId) : Bool :=
  match w.critical with
  | some (.grabTrackedObjects (.iterator j) _ _ _) => j == i
  | _ => false

/-- The body that the current critical section keeps alive. -/
def sectionBody : Option BodyId :=
  match w.critical with
  | some (.grabTrackedObjects _ b _ _) => some b
  | some (.contains _ b _ _ _) => some b
  | _ => none

/-- Some list that is owned has a node for the body, or a promoted pointer holds it. -/
def bodyAlive (b : BodyId) : Bool :=
  w.liveStates.any (fun s => (w.listOf s).list.values.contains b) ||
    w.sectionBody == some b || w.trash.contains (.body b)

/-- Some reference to the slot object of the connection exists. -/
def slotOwned (b : BodyId) : Bool :=
  (w.bodyAlive b && (w.bodies b).slot.isSome) ||
    w.garbage.contains b || w.trash.contains (.slot b)

/-! ### Updates of one component -/

def fail (f : Fault) : World σ := { w with fault := some f }

def setBody (b : BodyId) (body : ConnectionBody σ) : World σ :=
  { w with toBodyStore := w.toBodyStore.setBody b body }

def setInvocation (i : InvocationId) (inv : Invocation σ) : World σ :=
  { w with invocations := w.invocations.set i inv }

def setTraversal (t : TraversalId) (tr : Traversal σ) : World σ :=
  { w with traversals := w.traversals.set t tr }

def setHeap (heap : Heap σ) : World σ := { w with heap := heap }

def enter (s : Section σ) : World σ := { w with critical := some s }

/-- The end of the scope of a `garbage_collecting_lock`: the mutex is unlocked
first, the garbage is destroyed afterwards. -/
def unlock : World σ :=
  { w with
    critical := none
    garbage := []
    trash := w.trash ++ w.garbage.map Leftover.slot }

/-- An operation keeps the body that it has promoted. -/
def keepBody (b : BodyId) : World σ := { w with trash := w.trash ++ [Leftover.body b] }

def setActiveSlot (old new : Option BodyId) : World σ :=
  { w with toBodyStore := w.toBodyStore.setActiveSlot old new }

def nolockDisconnect (b : BodyId) : World σ :=
  { w with toBodyStore := w.toBodyStore.nolockDisconnect b }

def disconnectExpiredSlot (b : BodyId) : World σ :=
  if (w.bodies b).slot.isNone then w
  else if w.slotExpired b then w.nolockDisconnect b else w

end World

end Signals2
