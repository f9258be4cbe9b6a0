/-
What a step of the machine can do.  `Effect` lists the cases with everything a
proof may need of each: what was true before the step and the exact state after
it.  Invariants are shown against this list, so no other file takes the
definitions of the machine apart.
-/

import Signals2.Machine

namespace Signals2

open LinkedLists

variable {σ : SignalTemplate}

namespace World

/-- The grab of the tracked objects of `b` is over, and `u` is what it left: all
of them were promoted, or one was found expired and the body was disconnected. -/
inductive Ended (w : World σ) (b : BodyId) :
    List VoidWeakPtr → Option (Option ObjectId) → World σ → Prop
  | grabbed (locked : Option (Option ObjectId)) : Ended w b [] locked w
  | expired (p : VoidWeakPtr) (rest : List VoidWeakPtr)
      (expired : w.expired p = true) : Ended w b (p :: rest) none (w.nolockDisconnect b)

/-- Whether or not a body was disconnected, only the body store can differ. -/
theorem Ended.store {w u : World σ} {b : BodyId} {todo : List VoidWeakPtr}
    {locked : Option (Option ObjectId)} (ended : Ended w b todo locked u) :
    ∃ store, u = { w with toBodyStore := store } := by
  cases ended with
  | grabbed locked => exact ⟨_, rfl⟩
  | expired p rest expired => exact ⟨_, rfl⟩

theorem checkExpired_store (w : World σ) (grabTracked : Bool) (b : BodyId) :
    ∃ store, w.checkExpired grabTracked b = { w with toBodyStore := store } := by
  unfold checkExpired disconnectExpiredSlot
  split
  · split
    · exact ⟨_, rfl⟩
    · split
      · exact ⟨_, rfl⟩
      · exact ⟨_, rfl⟩
  · exact ⟨_, rfl⟩

theorem tested_store {w u : World σ} {b : BodyId} {condition : Prop} [Decidable condition]
    (tested : u = if condition then w.nolockDisconnect b else w) :
    ∃ store, u = { w with toBodyStore := store } := by
  subst tested
  split
  · exact ⟨_, rfl⟩
  · exact ⟨_, rfl⟩

/-- A step of an invocation that touches nothing else. -/
inductive Move (w : World σ) (i : InvocationId) (inv : Invocation σ) :
    Action σ → Invocation σ → Prop
  | clear (some : inv.trackedPtrs ≠ []) (outside : w.grabbing i = false)
      (phase : inv.phase = .searching ∧ inv.iter.node ≠ none ∨ inv.phase = .releasing) :
      Move w i inv (.clearTracked i) { inv with trackedPtrs := inv.trackedPtrs.dropLast }
  | reachEnd (phase : inv.phase = .searching) (atEnd : inv.iter.node = none)
      (idle : inv.callableIter.node = none) :
      Move w i inv (.reachEnd i) { inv with phase := .ready }
  | call (b : BodyId) (slot : Slot σ) (phase : inv.phase = .ready)
      (inside : inv.iter.node ≠ none) (first : inv.result = none)
      (here : w.bodyAt inv.localState inv.iter = some b)
      (held : (w.bodies b).slot = some slot)
      (promoted : ∀ weakPimpl, slot.slotFunction.target = .weakSignal weakPimpl →
        w.owned weakPimpl = true) :
      Move w i inv (.dereference i) { inv with phase := .running }
  | returns (result : σ.Result) (phase : inv.phase = .running) :
      Move w i inv (.slotReturns i result) { inv with phase := .ready, result := some result }
  | throws (phase : inv.phase = .running) :
      Move w i inv (.slotThrows i false) { inv with phase := .ready }
  | increment (phase : inv.phase = .ready) (inside : inv.iter.node ≠ none)
      (here : w.bodyAt inv.localState inv.iter ≠ none) :
      Move w i inv (.increment i)
        { inv with
          iter := w.iteratorAfter inv.localState inv.iter
          result := none
          phase :=
            if w.iteratorAfter inv.localState inv.iter = inv.callableIter then .ready
            else .searching }
  | finish (phase : inv.phase = .ready) :
      Move w i inv (.finish i) { inv with phase := .janitor }
  | leave (phase : inv.phase = .janitor)
      (few : ¬ inv.connectedSlotCount < inv.disconnectedSlotCount ∨
        w.critical = none ∧ ∃ impl, w.heap.impl = some impl ∧
          inv.localState.map (fun s => (w.heap.states s).connectionBodies) ≠
            some (w.heap.states impl.sharedState).connectionBodies) :
      Move w i inv (.janitor i) { inv with phase := .destructing }
  | skipCache (phase : inv.phase = .destructing) (idle : inv.activeSlot = none) :
      Move w i inv (.destroyCache i) { inv with phase := .releasing }
  | releaseState (phase : inv.phase = .releasing) (cleared : inv.trackedPtrs = []) :
      Move w i inv (.releaseState i) { inv with phase := .done, localState := none }

/-- The slot function, or the one it wraps, is a functor equal to the argument. -/
def functorMatches (argument : SlotArgument σ.Function) (slot : Slot σ) : Bool :=
  match slot.slotFunction.target, argument with
  | .functor function, .functor equal => equal function
  | _, _ => false

/-- A traversal disconnects the body it stands on, whatever a promotion may say. -/
def targets (w : World σ) (kind : TraversalKind σ) (b : BodyId) : Bool :=
  match kind with
  | .disconnectAllSlots => true
  | .disconnectGroup _ => true
  | .doDisconnect argument => (w.bodies b).slot.any (functorMatches argument)
  | .numSlots => false
  | .empty => false

/-- A step of a traversal that touches nothing else. -/
inductive Walk (w : World σ) (tr : Traversal σ) : Traversal σ → Prop
  | dead (argument : SlotArgument σ.Function) (b : BodyId) (free : w.critical = none)
      (kind : tr.kind = .doDisconnect argument) (inside : tr.it ≠ tr.endIt)
      (here : w.bodyAt tr.localState tr.it = some b)
      (disconnected : (w.bodies b).connected = false) :
      Walk w tr { tr with it := w.iteratorAfter tr.localState tr.it }
  | other (argument : SlotArgument σ.Function) (b : BodyId) (slot : Slot σ)
      (free : w.critical = none) (kind : tr.kind = .doDisconnect argument) (inside : tr.it ≠ tr.endIt)
      (here : w.bodyAt tr.localState tr.it = some b)
      (held : (w.bodies b).slot = some slot)
      (differs : functorMatches argument slot = false)
      (noSignal : ∀ weakPimpl pimpl, slot.slotFunction = .plain (.weakSignal weakPimpl) →
        argument ≠ .signal pimpl) :
      Walk w tr { tr with it := w.iteratorAfter tr.localState tr.it }
  | finish (progress : tr.localState ≠ none) (finished : tr.it = tr.endIt ∨ tr.answered = true) :
      Walk w tr { tr with localState := none }

/-- Nothing changes but owners, blocks, blockers, released references and answers. -/
structure Outside (w w' : World σ) : Prop where
  heap : w'.heap = w.heap
  bodies : ∀ b, w'.bodies b =
    { w.bodies b with weakBlocker := (w'.bodies b).weakBlocker }
  nextBody : w'.nextBody = w.nextBody
  garbage : w'.garbage = w.garbage
  fault : w'.fault = w.fault
  invocations : w'.invocations = w.invocations
  traversals : w'.traversals = w.traversals
  critical : w'.critical = w.critical
  stays : ∀ o, w.owned o = false → w'.owned o = false

/-- Why a step ends in a fault. -/
inductive Cause (w : World σ) : Action σ → Fault → Prop
  | sweepDestroyed (it : Iterator) (i count : Nat) (grabTracked : Bool)
      (after : AfterCleanup σ)
      (critical : w.critical = some (.cleanupConnections it i count grabTracked after))
      (gone : w.heap.impl = none) : Cause w .section .destroyedImpl
  | sweepDangling (it : Iterator) (i count : Nat) (grabTracked : Bool)
      (after : AfterCleanup σ) (impl : SignalImpl)
      (critical : w.critical = some (.cleanupConnections it i count grabTracked after))
      (present : w.heap.impl = some impl) (inside : it ≠ (w.heap.connectionBodies impl).list.past)
      (dangling : (w.heap.connectionBodies impl).list.value? it = none) :
      Cause w .section .danglingIterator
  | eraseAssertion (it : Iterator) (i count : Nat) (grabTracked : Bool)
      (after : AfterCleanup σ) (impl : SignalImpl) (b : BodyId)
      (critical : w.critical = some (.cleanupConnections it i count grabTracked after))
      (present : w.heap.impl = some impl)
      (found : (w.heap.connectionBodies impl).list.value? it = some b)
      (failed : (w.heap.connectionBodies impl).erase
        ((w.checkExpired grabTracked b).bodies b).groupKey it = none) :
      Cause w .section .eraseAssertion
  | iterDangling {a : Action σ} (i : InvocationId) (inv : Invocation σ)
      (found : w.invocations[i]? = some inv)
      (phase : inv.phase = .searching ∨ inv.phase = .ready ∨ inv.phase = .running)
      (inside : inv.phase = .running ∨ inv.iter.node ≠ none)
      (dangling : w.bodyAt inv.localState inv.iter = none) : Cause w a .danglingIterator
  | callableDangling (i : InvocationId) (inv : Invocation σ)
      (found : w.invocations[i]? = some inv) (phase : inv.phase = .searching)
      (inside : inv.callableIter.node ≠ none)
      (dangling : w.bodyAt inv.localState inv.callableIter = none) :
      Cause w (.reachEnd i) .danglingIterator
  | released (i : InvocationId) (inv : Invocation σ) (b : BodyId)
      (found : w.invocations[i]? = some inv) (phase : inv.phase = .ready)
      (inside : inv.iter.node ≠ none)
      (here : w.bodyAt inv.localState inv.iter = some b)
      (gone : (w.bodies b).slot = none) : Cause w (.dereference i) .releasedSlot
  | expiredSignal (i : InvocationId) (inv : Invocation σ) (b : BodyId) (slot : Slot σ)
      (weakPimpl : ObjectId) (found : w.invocations[i]? = some inv)
      (phase : inv.phase = .ready) (inside : inv.iter.node ≠ none)
      (here : w.bodyAt inv.localState inv.iter = some b)
      (held : (w.bodies b).slot = some slot)
      (target : slot.slotFunction.target = .weakSignal weakPimpl)
      (gone : w.owned weakPimpl = false) : Cause w (.dereference i) .expiredSignal
  | janitorDestroyed (i : InvocationId) (inv : Invocation σ)
      (found : w.invocations[i]? = some inv) (phase : inv.phase = .janitor)
      (many : inv.connectedSlotCount < inv.disconnectedSlotCount)
      (gone : w.heap.impl = none) : Cause w (.janitor i) .destroyedImpl
  | walkDangling (t : TraversalId) (tr : Traversal σ) (found : w.traversals[t]? = some tr)
      (progress : tr.localState ≠ none) (inside : tr.it ≠ tr.endIt)
      (dangling : w.bodyAt tr.localState tr.it = none) : Cause w (.advance t) .danglingIterator
  | walkReleased (t : TraversalId) (b : BodyId)
      (connected : (w.bodies b).connected = true) (gone : (w.bodies b).slot = none) :
      Cause w (.advance t) .releasedSlot

/-- The client for which a grab of the tracked objects of `b` can start. -/
def GrabReady (w : World σ) : GrabClient → BodyId → Prop
  | .iterator i, b => ∃ inv, w.invocations[i]? = some inv ∧ inv.phase = .searching ∧
      inv.iter.node ≠ none ∧ inv.trackedPtrs = [] ∧ w.bodyAt inv.localState inv.iter = some b
  | .connected, b => w.bodyAlive b = true
  | .traversal t, b => ∃ tr, w.traversals[t]? = some tr ∧
      (tr.kind = .numSlots ∨ tr.kind = .empty) ∧ tr.answered = false ∧
      tr.it ≠ tr.endIt ∧ w.bodyAt tr.localState tr.it = some b

/-- The client for which a cleanup can start. -/
def CleanupReady (w : World σ) : AfterCleanup σ → Prop
  | .connect _ => True
  | .invoke => True
  | .forceCleanup i => ∃ inv, w.invocations[i]? = some inv ∧ inv.phase = .janitor ∧
      inv.connectedSlotCount < inv.disconnectedSlotCount

/-- `connected_slot_count` or `disconnected_slot_count` goes up. -/
def counted (inv : Invocation σ) (connected : Bool) : Invocation σ :=
  if connected then { inv with connectedSlotCount := inv.connectedSlotCount + 1 }
  else { inv with disconnectedSlotCount := inv.disconnectedSlotCount + 1 }

inductive Effect (w : World σ) : Action σ → World σ → Prop
  -- operations of the signal
  | sweepStart {a : Action σ} (impl : SignalImpl) (it : Iterator) (count : Nat)
      (grabTracked : Bool) (after : AfterCleanup σ) (free : w.critical = none)
      (present : w.heap.impl = some impl) (unique : w.unique impl.sharedState = true)
      (position : it = (w.heap.connectionBodies impl).list.begin ∨
        it = impl.garbageCollectorIt ∧ it ≠ (w.heap.connectionBodies impl).list.past)
      (ready : w.CleanupReady after) :
      Effect w a (w.enter (.cleanupConnections it 0 count grabTracked after))
  | copyAndSweep {a : Action σ} (impl : SignalImpl) (grabTracked : Bool)
      (after : AfterCleanup σ) (free : w.critical = none)
      (present : w.heap.impl = some impl) (shared : w.unique impl.sharedState = false)
      (ready : w.CleanupReady after) :
      Effect w a ((w.setHeap (w.heap.copyConnectionBodies impl)).enter
        (.cleanupConnections ((w.heap.connectionBodies impl).copy w.heap.nextList).list.begin
          0 0 grabTracked after))
  | assignCombiner (combiner : σ.Combiner) (impl : SignalImpl) (free : w.critical = none)
      (present : w.heap.impl = some impl) (unique : w.unique impl.sharedState = true) :
      Effect w (.setCombiner combiner) (w.setHeap (w.heap.assignCombiner impl combiner))
  | replaceCombiner (combiner : σ.Combiner) (impl : SignalImpl) (free : w.critical = none)
      (present : w.heap.impl = some impl) (shared : w.unique impl.sharedState = false) :
      Effect w (.setCombiner combiner) (w.setHeap (w.heap.replaceCombiner impl combiner))
  | start (impl : SignalImpl) (free : w.critical = none)
      (present : w.heap.impl = some impl) (shared : w.unique impl.sharedState = false) :
      Effect w .invoke (w.startInvocation impl)
  | traverse (impl : SignalImpl) (kind : TraversalKind σ) (free : w.critical = none)
      (present : w.heap.impl = some impl) :
      Effect w (.traverse kind)
        { w with traversals := w.traversals ++ [w.newTraversal impl kind] }
  | destroy (impl : SignalImpl) (present : w.heap.impl = some impl) :
      Effect w .destroy (w.setHeap { w.heap with impl := none })
  -- grabbing tracked objects
  | grabStart {a : Action σ} (client : GrabClient) (b : BodyId) (free : w.critical = none)
      (ready : w.GrabReady client b) : Effect w a (w.enterGrab client b)
  | promote (client : GrabClient) (b : BodyId) (p : VoidWeakPtr) (rest : List VoidWeakPtr)
      (critical : w.critical = some (.grabTrackedObjects client b (p :: rest) none))
      (alive : w.expired p = false) :
      Effect w .section
        (w.enter (.grabTrackedObjects client b (p :: rest) (some (w.lockWeakPtr p))))
  | keep (client : GrabClient) (b : BodyId) (p : VoidWeakPtr) (rest : List VoidWeakPtr)
      (locked : Option ObjectId)
      (critical : w.critical = some (.grabTrackedObjects client b (p :: rest) (some locked))) :
      Effect w .section
        ((w.insertLocked client locked).enter (.grabTrackedObjects client b rest none))
  | answer (b : BodyId) (todo : List VoidWeakPtr) (locked : Option (Option ObjectId))
      (u : World σ) (critical : w.critical = some (.grabTrackedObjects .connected b todo locked))
      (ended : Ended w b todo locked u) :
      Effect w .section
        { u with
          returned := (b, (u.bodies b).connected) :: u.returned
          trash := u.trash ++ [Leftover.body b] }.unlock
  | count (t : TraversalId) (b : BodyId) (todo : List VoidWeakPtr)
      (locked : Option (Option ObjectId)) (u : World σ) (tr : Traversal σ)
      (critical : w.critical = some (.grabTrackedObjects (.traversal t) b todo locked))
      (ended : Ended w b todo locked u) (found : w.traversals[t]? = some tr) :
      Effect w .section
        (u.setTraversal t
          { tr with
            it := w.iteratorAfter tr.localState tr.it
            count := if (u.bodies b).connected then tr.count + 1 else tr.count }).unlock
  | commit (i : InvocationId) (b : BodyId) (locked : Option (Option ObjectId))
      (inv : Invocation σ)
      (critical : w.critical = some (.grabTrackedObjects (.iterator i) b [] locked))
      (found : w.invocations[i]? = some inv) (connected : (w.bodies b).connected = true)
      (unblocked : w.blocked b = false) :
      Effect w .section
        ((w.setActiveSlot inv.activeSlot (some b)).setInvocation i
          { inv with
            connectedSlotCount := inv.connectedSlotCount + 1
            callableIter := inv.iter
            activeSlot := some b
            phase := .ready }).unlock
  | skip (i : InvocationId) (b : BodyId) (todo : List VoidWeakPtr)
      (locked : Option (Option ObjectId)) (u : World σ) (inv : Invocation σ)
      (critical : w.critical = some (.grabTrackedObjects (.iterator i) b todo locked))
      (ended : Ended w b todo locked u) (found : w.invocations[i]? = some inv)
      (blocked : u.nolockNograbBlocked b = true) :
      Effect w .section
        (u.setInvocation i
          { counted inv (u.bodies b).connected with
            iter := w.iteratorAfter inv.localState inv.iter }).unlock
  | lost (client : GrabClient) (b : BodyId) (todo : List VoidWeakPtr)
      (locked : Option (Option ObjectId)) (u : World σ)
      (critical : w.critical = some (.grabTrackedObjects client b todo locked))
      (ended : Ended w b todo locked u)
      (missing : match client with
        | .iterator i => w.invocations[i]? = none
        | .traversal t => w.traversals[t]? = none
        | .connected => False) : Effect w .section u.unlock
  -- the test for a connected signal
  | contains (t : TraversalId) (b : BodyId) (weakPimpl pimpl : ObjectId)
      (locked : Option ObjectId) (u : World σ) (tr : Traversal σ)
      (critical : w.critical = some (.contains t b weakPimpl pimpl locked))
      (tested : u = if locked = some pimpl then w.nolockDisconnect b else w)
      (found : w.traversals[t]? = some tr) :
      Effect w .section
        (u.setTraversal t { tr with it := w.iteratorAfter tr.localState tr.it }).unlock
  | containsLost (t : TraversalId) (b : BodyId) (weakPimpl pimpl : ObjectId)
      (locked : Option ObjectId) (u : World σ)
      (critical : w.critical = some (.contains t b weakPimpl pimpl locked))
      (tested : u = if locked = some pimpl then w.nolockDisconnect b else w)
      (missing : w.traversals[t]? = none) : Effect w .section u.unlock
  -- cleaning up
  | sweepErase (it : Iterator) (i count : Nat) (grabTracked : Bool) (after : AfterCleanup σ)
      (impl : SignalImpl) (b : BodyId) (list : GroupedList σ.Group BodyId) (next : Iterator)
      (critical : w.critical = some (.cleanupConnections it i count grabTracked after))
      (present : w.heap.impl = some impl)
      (inside : it ≠ (w.heap.connectionBodies impl).list.past) (more : count = 0 ∨ i < count)
      (here : (w.heap.connectionBodies impl).list.value? it = some b)
      (dead : ((w.checkExpired grabTracked b).bodies b).connected = false)
      (erased : (w.heap.connectionBodies impl).erase
        ((w.checkExpired grabTracked b).bodies b).groupKey it = some (list, next)) :
      Effect w .section
        (((w.checkExpired grabTracked b).setHeap (w.heap.setConnectionBodies impl list)).enter
          (.cleanupConnections next (i + 1) count grabTracked after))
  | sweepSkip (it : Iterator) (i count : Nat) (grabTracked : Bool) (after : AfterCleanup σ)
      (impl : SignalImpl) (b : BodyId)
      (critical : w.critical = some (.cleanupConnections it i count grabTracked after))
      (present : w.heap.impl = some impl)
      (inside : it ≠ (w.heap.connectionBodies impl).list.past) (more : count = 0 ∨ i < count)
      (here : (w.heap.connectionBodies impl).list.value? it = some b)
      (connected : ((w.checkExpired grabTracked b).bodies b).connected = true) :
      Effect w .section
        ((w.checkExpired grabTracked b).enter
          (.cleanupConnections ((w.heap.connectionBodies impl).list.next it) (i + 1) count
            grabTracked after))
  | sweepEnd (it : Iterator) (i count : Nat) (grabTracked : Bool) (after : AfterCleanup σ)
      (impl : SignalImpl)
      (critical : w.critical = some (.cleanupConnections it i count grabTracked after))
      (present : w.heap.impl = some impl)
      (done : ¬ (it ≠ (w.heap.connectionBodies impl).list.past ∧ (count = 0 ∨ i < count))) :
      Effect w .section (w.finishCleanup impl it after)
  -- connection bodies
  | disconnect (b : BodyId) (free : w.critical = none) (alive : w.bodyAlive b = true) :
      Effect w (.disconnect b) ((w.nolockDisconnect b).keepBody b).unlock
  | throwExpired (i : InvocationId) (inv : Invocation σ) (b : BodyId)
      (free : w.critical = none) (found : w.invocations[i]? = some inv)
      (phase : inv.phase = .running) (here : w.bodyAt inv.localState inv.iter = some b) :
      Effect w (.slotThrows i true)
        ((w.setInvocation i { inv with phase := .ready }).nolockDisconnect b).unlock
  | walkDisconnect (t : TraversalId) (tr : Traversal σ) (b : BodyId)
      (free : w.critical = none) (found : w.traversals[t]? = some tr)
      (inside : tr.it ≠ tr.endIt) (here : w.bodyAt tr.localState tr.it = some b)
      (targets : w.targets tr.kind b = true) :
      Effect w (.advance t)
        ((w.setTraversal t
          { tr with it := w.iteratorAfter tr.localState tr.it }).nolockDisconnect b).unlock
  -- invocations and traversals
  | move {a : Action σ} (i : InvocationId) (inv inv' : Invocation σ)
      (found : w.invocations[i]? = some inv) (move : Move w i inv a inv') :
      Effect w a (w.setInvocation i inv')
  | reachEnd (i : InvocationId) (inv : Invocation σ) (free : w.critical = none)
      (found : w.invocations[i]? = some inv) (phase : inv.phase = .searching)
      (atEnd : inv.iter.node = none) (callable : inv.callableIter.node ≠ none) :
      Effect w (.reachEnd i)
        ((w.setActiveSlot inv.activeSlot none).setInvocation i
          { inv with phase := .ready, callableIter := inv.iter, activeSlot := none }).unlock
  | destroyCache (i : InvocationId) (inv : Invocation σ) (free : w.critical = none)
      (found : w.invocations[i]? = some inv) (phase : inv.phase = .destructing)
      (active : inv.activeSlot ≠ none) :
      Effect w (.destroyCache i)
        ((w.setActiveSlot inv.activeSlot none).setInvocation i
          { inv with phase := .releasing, activeSlot := none }).unlock
  | walk (t : TraversalId) (tr tr' : Traversal σ) (found : w.traversals[t]? = some tr)
      (walk : Walk w tr tr') : Effect w (.advance t) (w.setTraversal t tr')
  | containsStart (t : TraversalId) (tr : Traversal σ) (b : BodyId) (weakPimpl pimpl : ObjectId)
      (free : w.critical = none) (found : w.traversals[t]? = some tr)
      (inside : tr.it ≠ tr.endIt) (here : w.bodyAt tr.localState tr.it = some b)
      (kind : tr.kind = .doDisconnect (.signal pimpl))
      (connected : (w.bodies b).connected = true) (slot : Slot σ)
      (held : (w.bodies b).slot = some slot)
      (wrapped : slot.slotFunction = .plain (.weakSignal weakPimpl)) :
      Effect w (.advance t)
        (w.enter (.contains t b weakPimpl pimpl (w.lockWeakPtr (.boost weakPimpl))))
  -- the rest
  | outside {a : Action σ} (w' : World σ) (outside : Outside w w') : Effect w a w'
  | fault {a : Action σ} (u : World σ) (f : Fault) (cause : Cause w a f)
      (u_eq : u = w ∨ ∃ grabTracked b, u = w.checkExpired grabTracked b) :
      Effect w a (u.fail f)

/-! ### Every step is one of them -/

variable {w w' : World σ}

theorem lockImpl_some {impl : SignalImpl} (locked : w.lockImpl = some impl) :
    w.critical = none ∧ w.heap.impl = some impl := by
  cases critical : w.critical with
  | none => exact ⟨rfl, by simpa only [lockImpl, critical] using locked⟩
  | some taken => simp [lockImpl, critical] at locked

private theorem cleanup_position (impl : SignalImpl) (list : GroupedList σ.Group BodyId) :
    (if impl.garbageCollectorIt = list.past then list.begin else impl.garbageCollectorIt) =
        list.list.begin ∨
      (if impl.garbageCollectorIt = list.past then list.begin else impl.garbageCollectorIt) =
          impl.garbageCollectorIt ∧
        (if impl.garbageCollectorIt = list.past then list.begin
          else impl.garbageCollectorIt) ≠ list.list.past := by
  by_cases atEnd : impl.garbageCollectorIt = list.past
  · left
    rw [if_pos atEnd]
    rfl
  · right
    rw [if_neg atEnd]
    exact ⟨rfl, atEnd⟩

theorem connect_effect {arguments : ConnectArguments σ}
    (stepped : w.connect arguments = some w') : Effect w (.connect arguments) w' := by
  obtain ⟨impl, locked, rfl⟩ := Option.map_eq_some_iff.mp stepped
  obtain ⟨free, present⟩ := lockImpl_some locked
  unfold nolockForceUniqueConnectionList
  split
  · rename_i shared
    change Effect w _ ((w.setHeap (w.heap.copyConnectionBodies impl)).enter
      (.cleanupConnections ((w.heap.copyConnectionBodies impl).lists w.heap.nextList).list.begin
        0 0 true (.connect arguments)))
    rw [Heap.copyConnectionBodies_new]
    exact .copyAndSweep impl _ _ free present shared trivial
  · rename_i unique
    exact .sweepStart impl _ _ _ _ free present (by simpa using unique)
      (cleanup_position impl _) trivial

theorem setCombiner_effect {combiner : σ.Combiner}
    (stepped : w.setCombiner combiner = some w') : Effect w (.setCombiner combiner) w' := by
  obtain ⟨impl, locked, rfl⟩ := Option.map_eq_some_iff.mp stepped
  obtain ⟨free, present⟩ := lockImpl_some locked
  split
  · rename_i unique
    exact .assignCombiner combiner impl free present unique
  · rename_i shared
    exact .replaceCombiner combiner impl free present (by simpa using shared)

theorem invoke_effect (stepped : w.invoke = some w') : Effect w .invoke w' := by
  obtain ⟨impl, locked, rfl⟩ := Option.map_eq_some_iff.mp stepped
  obtain ⟨free, present⟩ := lockImpl_some locked
  split
  · rename_i unique
    exact .sweepStart impl _ _ _ _ free present unique (cleanup_position impl _) trivial
  · rename_i shared
    exact .start impl free present (by simpa using shared)

theorem traverse_effect {kind : TraversalKind σ} (stepped : w.traverse kind = some w') :
    Effect w (.traverse kind) w' := by
  obtain ⟨impl, locked, rfl⟩ := Option.map_eq_some_iff.mp stepped
  obtain ⟨free, present⟩ := lockImpl_some locked
  exact .traverse impl kind free present

theorem destroy_effect (stepped : w.destroy = some w') : Effect w .destroy w' := by
  obtain ⟨impl, present, rfl⟩ := Option.map_eq_some_iff.mp stepped
  exact .destroy impl present

theorem callable_iff {b : BodyId} : w.nolockNograbBlocked b = false ↔
    (w.bodies b).connected = true ∧ w.blocked b = false := by
  cases connected : (w.bodies b).connected <;> simp [nolockNograbBlocked, connected]

theorem grab_ended (client : GrabClient) (b : BodyId) (todo : List VoidWeakPtr)
    (locked : Option (Option ObjectId)) (u : World σ)
    (critical : w.critical = some (.grabTrackedObjects client b todo locked))
    (ended : Ended w b todo locked u) : Effect w .section (u.finishGrab client b) := by
  have same : u.invocations = w.invocations ∧ u.traversals = w.traversals ∧
      u.heap = w.heap := by
    obtain ⟨store, rfl⟩ := ended.store
    exact ⟨rfl, rfl, rfl⟩
  obtain ⟨invocations, traversals, heap⟩ := same
  have after : ∀ localState it, u.iteratorAfter localState it = w.iteratorAfter localState it := by
    intro localState it
    simp only [iteratorAfter, listOf, heap]
  cases client with
  | connected => exact .answer b todo locked u critical ended
  | traversal t =>
      simp only [finishGrab, traversals, after]
      cases found : w.traversals[t]? with
      | none => exact .lost _ b todo locked u critical ended found
      | some tr => exact .count t b todo locked u tr critical ended found
  | iterator i =>
      simp only [finishGrab, invocations, after]
      cases found : w.invocations[i]? with
      | none => exact .lost _ b todo locked u critical ended found
      | some inv =>
          dsimp only
          split
          · rename_i callable
            obtain ⟨connected, unblocked⟩ := callable_iff.mp callable
            cases ended with
            | grabbed locked =>
                rw [if_pos connected]
                exact .commit i b locked inv critical found connected unblocked
            | expired p rest expired =>
                have disconnected : ((w.nolockDisconnect b).bodies b).connected = false :=
                  BodyStore.nolockDisconnect_connected b
                rw [disconnected] at connected
                contradiction
          · rename_i blocked
            have skipped := Effect.skip i b todo locked u inv critical ended found
              (by simpa using blocked)
            simpa only [counted, apply_ite] using skipped

theorem sectionStep_effect (stepped : w.sectionStep = some w') : Effect w .section w' := by
  unfold sectionStep at stepped
  cases critical : w.critical with
  | none => simp [critical] at stepped
  | some taken =>
      cases taken with
      | grabTrackedObjects client b todo locked =>
          simp only [critical, Option.some.injEq] at stepped
          subst stepped
          cases todo with
          | nil => exact grab_ended client b [] locked w critical (.grabbed locked)
          | cons p rest =>
              cases locked with
              | some locked => exact .keep client b p rest locked critical
              | none =>
                  simp only [grabStep]
                  split
                  · rename_i expired
                    exact grab_ended client b _ none _ critical (.expired p rest expired)
                  · rename_i alive
                    exact .promote client b p rest critical (by simpa using alive)
      | contains t b weakPimpl pimpl locked =>
          simp only [critical, Option.some.injEq] at stepped
          subst stepped
          simp only [containsStep]
          cases found : w.traversals[t]? with
          | none => exact .containsLost t b weakPimpl pimpl locked _ critical rfl found
          | some tr => exact .contains t b weakPimpl pimpl locked _ tr critical rfl found
      | cleanupConnections it i count grabTracked after =>
          simp only [critical, Option.some.injEq] at stepped
          subst stepped
          unfold cleanupStep
          cases present : w.heap.impl with
          | none =>
              exact .fault w _ (.sweepDestroyed it i count grabTracked after critical present)
                (.inl rfl)
          | some impl =>
              dsimp only
              split
              · rename_i more
                cases here : (w.heap.connectionBodies impl).list.value? it with
                | none =>
                    exact .fault w _ (.sweepDangling it i count grabTracked after impl
                      critical present more.1 here) (.inl rfl)
                | some b =>
                    dsimp only
                    split
                    · rename_i dead
                      cases erased : (w.heap.connectionBodies impl).erase
                          ((w.checkExpired grabTracked b).bodies b).groupKey it with
                      | none =>
                          exact .fault _ _ (.eraseAssertion it i count grabTracked after impl b
                            critical present here erased) (.inr ⟨grabTracked, b, rfl⟩)
                      | some result =>
                          exact .sweepErase it i count grabTracked after impl b result.1 result.2
                            critical present more.1 more.2 here dead erased
                    · rename_i connected
                      exact .sweepSkip it i count grabTracked after impl b critical present
                        more.1 more.2 here (by simpa using connected)
              · rename_i done
                exact .sweepEnd it i count grabTracked after impl critical present done

theorem Outside.refl (w : World σ) : Outside w w where
  heap := rfl
  bodies _ := rfl
  nextBody := rfl
  garbage := rfl
  fault := rfl
  invocations := rfl
  traversals := rfl
  critical := rfl
  stays _ gone := gone

theorem promote_effect {b : BodyId} (stepped : w.promote b = some w') :
    Effect w (.promote b) w' := by
  unfold promote at stepped
  split at stepped
  · cases stepped
    exact .outside _ { Outside.refl w with }
  · contradiction

theorem disconnect_effect {b : BodyId} (stepped : w.disconnect b = some w') :
    Effect w (.disconnect b) w' := by
  unfold disconnect at stepped
  split at stepped
  · contradiction
  · rename_i free
    split at stepped
    · rename_i alive
      cases stepped
      exact .disconnect b (by simpa using free) alive
    · cases stepped
      exact .outside w (.refl w)

theorem connected_effect {b : BodyId} (stepped : w.connected b = some w') :
    Effect w (.connected b) w' := by
  unfold connected at stepped
  split at stepped
  · contradiction
  · rename_i free
    split at stepped
    · rename_i alive
      cases stepped
      exact .grabStart .connected b (by simpa using free) alive
    · cases stepped
      exact .outside _ { Outside.refl w with }

theorem clearTracked_effect {i : InvocationId} (stepped : w.clearTracked i = some w') :
    Effect w (.clearTracked i) w' := by
  unfold clearTracked at stepped
  cases found : w.invocations[i]? with
  | none => simp [found] at stepped
  | some inv =>
      simp only [found] at stepped
      split at stepped
      · contradiction
      · rename_i able
        rw [not_or, Bool.not_eq_true] at able
        split at stepped
        · rename_i phase
          cases stepped
          exact .move i inv _ found (.clear able.1 able.2 phase)
        · contradiction

theorem lockNext_effect {i : InvocationId} (stepped : w.lockNext i = some w') :
    Effect w (.lockNext i) w' := by
  unfold lockNext at stepped
  cases found : w.invocations[i]? with
  | none => simp [found] at stepped
  | some inv =>
      simp only [found] at stepped
      split at stepped
      · rename_i ready
        obtain ⟨phase, inside, cleared, free⟩ := ready
        cases here : w.bodyAt inv.localState inv.iter with
        | none =>
            simp only [here, Option.some.injEq] at stepped
            subst stepped
            exact .fault w _ (.iterDangling i inv found (.inl phase) (.inr inside) here)
              (.inl rfl)
        | some b =>
            simp only [here, Option.some.injEq] at stepped
            subst stepped
            exact .grabStart (.iterator i) b free ⟨inv, found, phase, inside, cleared, here⟩
      · contradiction

theorem reachEnd_effect {i : InvocationId} (stepped : w.reachEnd i = some w') :
    Effect w (.reachEnd i) w' := by
  unfold reachEnd at stepped
  cases found : w.invocations[i]? with
  | none => simp [found] at stepped
  | some inv =>
      simp only [found] at stepped
      split at stepped
      · rename_i ready
        split at stepped
        · rename_i idle
          cases stepped
          exact .move i inv _ found (.reachEnd ready.1 ready.2 idle)
        · rename_i callable
          split at stepped
          · contradiction
          · rename_i free
            cases here : w.bodyAt inv.localState inv.callableIter with
            | none =>
                simp only [here, Option.some.injEq] at stepped
                subst stepped
                exact .fault w _ (.callableDangling i inv found ready.1 callable here) (.inl rfl)
            | some b =>
                simp only [here, Option.some.injEq] at stepped
                subst stepped
                exact .reachEnd i inv (by simpa using free) found ready.1 ready.2 callable
      · contradiction

theorem dereference_effect {i : InvocationId} (stepped : w.dereference i = some w') :
    Effect w (.dereference i) w' := by
  unfold dereference at stepped
  cases found : w.invocations[i]? with
  | none => simp [found] at stepped
  | some inv =>
      simp only [found] at stepped
      split at stepped
      · rename_i ready
        split at stepped
        · cases stepped
          exact .outside w (.refl w)
        · rename_i first
          have noResult : inv.result = none := by simpa using first
          cases here : w.bodyAt inv.localState inv.iter with
          | none =>
              simp only [here, Option.some.injEq] at stepped
              subst stepped
              exact .fault w _
                (.iterDangling i inv found (.inr (.inl ready.1)) (.inr ready.2) here) (.inl rfl)
          | some b =>
              cases held : (w.bodies b).slot with
              | none =>
                  simp only [here, held, Option.some.injEq] at stepped
                  subst stepped
                  exact .fault w _ (.released i inv b found ready.1 ready.2 here held) (.inl rfl)
              | some slot =>
                  cases target : slot.slotFunction.target with
                  | functor function =>
                      simp only [here, held, target, Option.some.injEq] at stepped
                      subst stepped
                      refine .move i inv _ found
                        (.call b slot ready.1 ready.2 noResult here held ?_)
                      intro weakPimpl same
                      rw [target] at same
                      contradiction
                  | weakSignal weakPimpl =>
                      simp only [here, held, target] at stepped
                      split at stepped
                      · rename_i promoted
                        cases stepped
                        refine .move i inv _ found
                          (.call b slot ready.1 ready.2 noResult here held ?_)
                        intro other same
                        rw [target] at same
                        cases same
                        exact promoted
                      · rename_i gone
                        cases stepped
                        exact .fault w _
                          (.expiredSignal i inv b slot weakPimpl found ready.1 ready.2 here held
                            target (by simpa using gone)) (.inl rfl)
      · contradiction

theorem slotReturns_effect {i : InvocationId} {result : σ.Result}
    (stepped : w.slotReturns i result = some w') : Effect w (.slotReturns i result) w' := by
  unfold slotReturns at stepped
  cases found : w.invocations[i]? with
  | none => simp [found] at stepped
  | some inv =>
      simp only [found] at stepped
      split at stepped
      · rename_i phase
        cases stepped
        exact .move i inv _ found (.returns result phase)
      · contradiction

theorem slotThrows_effect {i : InvocationId} {expiredSlot : Bool}
    (stepped : w.slotThrows i expiredSlot = some w') :
    Effect w (.slotThrows i expiredSlot) w' := by
  unfold slotThrows at stepped
  cases found : w.invocations[i]? with
  | none => simp [found] at stepped
  | some inv =>
      simp only [found] at stepped
      split at stepped
      · rename_i phase
        cases expiredSlot with
        | false =>
            simp only [Bool.false_eq_true, if_false, Option.some.injEq] at stepped
            subst stepped
            exact .move i inv _ found (.throws phase)
        | true =>
            simp only [if_true] at stepped
            split at stepped
            · contradiction
            · rename_i free
              cases here : w.bodyAt inv.localState inv.iter with
              | none =>
                  simp only [here, Option.some.injEq] at stepped
                  subst stepped
                  exact .fault w _
                    (.iterDangling i inv found (.inr (.inr phase)) (.inl phase) here) (.inl rfl)
              | some b =>
                  simp only [here, Option.some.injEq] at stepped
                  subst stepped
                  exact .throwExpired i inv b (by simpa using free) found phase here
      · contradiction

theorem increment_effect {i : InvocationId} (stepped : w.increment i = some w') :
    Effect w (.increment i) w' := by
  unfold increment at stepped
  cases found : w.invocations[i]? with
  | none => simp [found] at stepped
  | some inv =>
      simp only [found] at stepped
      split at stepped
      · rename_i ready
        split at stepped
        · rename_i dangling
          cases stepped
          exact .fault w _
            (.iterDangling i inv found (.inr (.inl ready.1)) (.inr ready.2) dangling) (.inl rfl)
        · rename_i here
          cases stepped
          exact .move i inv _ found (.increment ready.1 ready.2 here)
      · contradiction

theorem finish_effect {i : InvocationId} (stepped : w.finish i = some w') :
    Effect w (.finish i) w' := by
  unfold finish at stepped
  cases found : w.invocations[i]? with
  | none => simp [found] at stepped
  | some inv =>
      simp only [found] at stepped
      split at stepped
      · rename_i phase
        cases stepped
        exact .move i inv _ found (.finish phase)
      · contradiction

theorem janitor_effect {i : InvocationId} (stepped : w.janitor i = some w') :
    Effect w (.janitor i) w' := by
  unfold janitor at stepped
  cases found : w.invocations[i]? with
  | none => simp [found] at stepped
  | some inv =>
      simp only [found] at stepped
      split at stepped
      · rename_i phase
        split at stepped
        · rename_i many
          split at stepped
          · contradiction
          · rename_i taken
            have free : w.critical = none := by simpa using taken
            have ready : w.CleanupReady (.forceCleanup i) := ⟨inv, found, phase, many⟩
            cases present : w.heap.impl with
            | none =>
                simp only [present, Option.some.injEq] at stepped
                subst stepped
                exact .fault w _ (.janitorDestroyed i inv found phase many present) (.inl rfl)
            | some impl =>
                simp only [present] at stepped
                split at stepped
                · rename_i other
                  cases stepped
                  exact .move i inv _ found (.leave phase (.inr ⟨free, impl, present, other⟩))
                · by_cases unique : w.unique impl.sharedState = true
                  · simp only [unique, if_true, present, Option.some.injEq] at stepped
                    subst stepped
                    exact .sweepStart impl _ _ _ _ free present unique (.inl rfl) ready
                  · have shared : w.unique impl.sharedState = false := by simpa using unique
                    have copied := Effect.copyAndSweep (a := .janitor i) impl false (.forceCleanup i)
                      free present shared ready
                    rw [← Heap.copyConnectionBodies_new] at copied
                    simp only [shared, Bool.false_eq_true, if_false] at stepped
                    cases stepped
                    simpa only [setHeap, Heap.connectionBodies, Heap.copyConnectionBodies,
                      GroupedList.begin, Function.update_self] using copied
        · rename_i few
          cases stepped
          exact .move i inv _ found (.leave phase (.inl few))
      · contradiction

theorem destroyCache_effect {i : InvocationId} (stepped : w.destroyCache i = some w') :
    Effect w (.destroyCache i) w' := by
  unfold destroyCache at stepped
  cases found : w.invocations[i]? with
  | none => simp [found] at stepped
  | some inv =>
      simp only [found] at stepped
      split at stepped
      · rename_i phase
        split at stepped
        · rename_i idle
          cases stepped
          exact .move i inv _ found (.skipCache phase idle)
        · rename_i b active
          split at stepped
          · contradiction
          · rename_i free
            cases stepped
            rw [← active]
            exact .destroyCache i inv (by simpa using free) found phase (by simp [active])
      · contradiction

theorem releaseState_effect {i : InvocationId} (stepped : w.releaseState i = some w') :
    Effect w (.releaseState i) w' := by
  unfold releaseState at stepped
  cases found : w.invocations[i]? with
  | none => simp [found] at stepped
  | some inv =>
      simp only [found] at stepped
      split at stepped
      · rename_i ready
        cases stepped
        exact .move i inv _ found (.releaseState ready.1 ready.2)
      · contradiction

private theorem doDisconnect_effect {t : TraversalId} {tr : Traversal σ} {b : BodyId}
    {argument : SlotArgument σ.Function} (free : w.critical = none)
    (found : w.traversals[t]? = some tr) (inside : tr.it ≠ tr.endIt)
    (here : w.bodyAt tr.localState tr.it = some b) (kind : tr.kind = .doDisconnect argument) :
    Effect w (.advance t)
      (w.doDisconnect t tr b (w.iteratorAfter tr.localState tr.it) argument) := by
  unfold doDisconnect
  split
  · rename_i disconnected
    exact .walk t tr _ found (.dead argument b free kind inside here disconnected)
  · rename_i alive
    have connected : (w.bodies b).connected = true := by simpa using alive
    cases held : (w.bodies b).slot with
    | none => exact .fault w _ (.walkReleased t b connected held) (.inl rfl)
    | some slot =>
        have disconnects : functorMatches argument slot = true →
            Effect w (.advance t)
              ((w.setTraversal t
                { tr with
                  it := w.iteratorAfter tr.localState tr.it }).nolockDisconnect b).unlock := by
          intro equal
          refine .walkDisconnect t tr b free found inside here ?_
          simp only [kind, targets, held, Option.any_some, equal]
        have skips : functorMatches argument slot = false →
            (∀ weakPimpl pimpl, slot.slotFunction = .plain (.weakSignal weakPimpl) →
              argument ≠ .signal pimpl) →
            Effect w (.advance t)
              (w.setTraversal t { tr with it := w.iteratorAfter tr.localState tr.it }) := by
          intro differs noSignal
          exact .walk t tr _ found
            (.other argument b slot free kind inside here held differs noSignal)
        cases function : slot.slotFunction with
        | plain target =>
            cases target with
            | functor wrapped =>
                cases argument with
                | functor equal =>
                    simp only [function]
                    split
                    · rename_i same
                      exact disconnects (by
                        simpa [functorMatches, function, SlotFunction.target] using same)
                    · rename_i differs
                      exact skips (by
                        simpa [functorMatches, function, SlotFunction.target] using differs)
                        (by simp [function])
                | signal pimpl =>
                    simp only [function]
                    exact skips (by simp [functorMatches, function, SlotFunction.target])
                      (by simp [function])
            | weakSignal weakPimpl =>
                cases argument with
                | functor equal =>
                    simp only [function]
                    exact skips (by simp [functorMatches, function, SlotFunction.target])
                      (by simp)
                | signal pimpl =>
                    simp only [function]
                    exact .containsStart t tr b weakPimpl pimpl free found inside here kind
                      connected slot held function
        | boundExtended target =>
            cases target with
            | functor wrapped =>
                cases argument with
                | functor equal =>
                    simp only [function]
                    split
                    · rename_i same
                      exact disconnects (by
                        simpa [functorMatches, function, SlotFunction.target] using same)
                    · rename_i differs
                      exact skips (by
                        simpa [functorMatches, function, SlotFunction.target] using differs)
                        (by simp [function])
                | signal pimpl =>
                    simp only [function]
                    exact skips (by simp [functorMatches, function, SlotFunction.target])
                      (by simp [function])
            | weakSignal weakPimpl =>
                simp only [function]
                exact skips (by
                  cases argument <;> simp [functorMatches, function, SlotFunction.target])
                  (by simp [function])

theorem advance_effect {t : TraversalId} (stepped : w.advance t = some w') :
    Effect w (.advance t) w' := by
  unfold advance at stepped
  cases found : w.traversals[t]? with
  | none => simp [found] at stepped
  | some tr =>
      simp only [found] at stepped
      split at stepped
      · contradiction
      · rename_i progress
        split at stepped
        · rename_i finished
          cases stepped
          exact .walk t tr _ found (.finish progress finished)
        · rename_i unfinished
          have inside : tr.it ≠ tr.endIt := fun same => unfinished (.inl same)
          have unanswered : tr.answered = false := by
            simpa using fun answered => unfinished (.inr answered)
          split at stepped
          · contradiction
          · rename_i taken
            have free : w.critical = none := by simpa using taken
            cases here : w.bodyAt tr.localState tr.it with
            | none =>
                simp only [here, Option.some.injEq] at stepped
                subst stepped
                exact .fault w _ (.walkDangling t tr found progress inside here) (.inl rfl)
            | some b =>
                simp only [here] at stepped
                cases kind : tr.kind with
                | disconnectAllSlots =>
                    simp only [kind, Option.some.injEq] at stepped
                    subst stepped
                    rw [← kind]
                    exact .walkDisconnect t tr b free found inside here (by simp [kind, targets])
                | disconnectGroup group =>
                    simp only [kind, Option.some.injEq] at stepped
                    subst stepped
                    rw [← kind]
                    exact .walkDisconnect t tr b free found inside here (by simp [kind, targets])
                | numSlots =>
                    simp only [kind, Option.some.injEq] at stepped
                    subst stepped
                    exact .grabStart (.traversal t) b free
                      ⟨tr, found, .inl kind, unanswered, inside, here⟩
                | empty =>
                    simp only [kind, Option.some.injEq] at stepped
                    subst stepped
                    exact .grabStart (.traversal t) b free
                      ⟨tr, found, .inr kind, unanswered, inside, here⟩
                | doDisconnect argument =>
                    simp only [kind, Option.some.injEq] at stepped
                    subst stepped
                    exact doDisconnect_effect free found inside here kind

/-! ### Owners and blocks -/

theorem release_effect {n : Nat} (stepped : w.release n = some w') :
    Effect w (.release n) w' := by
  unfold release at stepped
  split at stepped
  · cases stepped
    exact .outside _ { Outside.refl w with }
  · contradiction

theorem acquire_effect {o : ObjectId} (stepped : w.acquire o = some w') :
    Effect w (.acquire o) w' := by
  unfold acquire at stepped
  split at stepped
  · rename_i owned
    cases stepped
    refine .outside _ { Outside.refl w with stays := ?_ }
    intro other gone
    have apart : other ≠ o := by
      intro same
      rw [same, owned] at gone
      contradiction
    simpa only [World.owned, lockedObject, Function.update_of_ne apart] using gone
  · contradiction

theorem drop_effect {o : ObjectId} (stepped : w.drop o = some w') :
    Effect w (.drop o) w' := by
  unfold drop at stepped
  split at stepped
  · cases stepped
    refine .outside _ { Outside.refl w with stays := ?_ }
    intro other gone
    by_cases same : other = o
    · subst same
      simp only [World.owned, lockedObject, Function.update_self, Bool.or_eq_false_iff,
        decide_eq_false_iff_not] at gone ⊢
      exact ⟨⟨by omega, gone.1.2⟩, gone.2⟩
    · simpa only [World.owned, lockedObject, Function.update_of_ne same] using gone
  · contradiction

theorem constructBlock_effect {b : Option BodyId} (stepped : w.constructBlock b = some w') :
    Effect w (.constructBlock b) w' := by
  cases stepped
  exact .outside _ { Outside.refl w with }

theorem copyBlock_effect {k : BlockId} (stepped : w.copyBlock k = some w') :
    Effect w (.copyBlock k) w' := by
  obtain ⟨original, found, rfl⟩ := Option.map_eq_some_iff.mp stepped
  exact .outside _ { Outside.refl w with }

theorem unblock_effect {k : BlockId} (stepped : w.unblock k = some w') :
    Effect w (.unblock k) w' := by
  obtain ⟨connectionBlock, found, rfl⟩ := Option.map_eq_some_iff.mp stepped
  exact .outside _ { Outside.refl w with }

private theorem setBlocker_outside (b : BodyId) (x : BlockerId) :
    Outside w (w.setBody b { w.bodies b with weakBlocker := some x }) :=
  { Outside.refl w with
    bodies := by
      intro other
      by_cases same : other = b
      · subst same
        simp [setBody, BodyStore.setBody]
      · simp [setBody, BodyStore.setBody, Function.update_of_ne same] }

private theorem getBlocker_outside (b : BodyId) : Outside w (w.getBlocker b).1 := by
  have anew := setBlocker_outside (w := w) b w.nextBlocker
  unfold getBlocker
  split
  · split
    · exact .refl w
    · exact { anew with }
  · exact { anew with }

theorem block_effect {k : BlockId} (stepped : w.block k = some w') :
    Effect w (.block k) w' := by
  unfold block at stepped
  cases found : w.blocks[k]? with
  | none => simp [found] at stepped
  | some connectionBlock =>
      simp only [found] at stepped
      split at stepped
      · cases stepped
        exact .outside w (.refl w)
      · cases alive : connectionBlock.weakConnectionBody.filter w.bodyAlive with
        | none =>
            simp only [alive, Option.some.injEq] at stepped
            subst stepped
            exact .outside _ { Outside.refl w with }
        | some b =>
            simp only [alive] at stepped
            split at stepped
            · contradiction
            · cases stepped
              exact .outside _ { getBlocker_outside (w := w) b with }

theorem step_effect {action : Action σ} (stepped : w.step action = some w') :
    w.fault = none ∧ Effect w action w' := by
  unfold step at stepped
  split at stepped
  · contradiction
  · rename_i sound
    refine ⟨by simpa using sound, ?_⟩
    cases action with
    | connect arguments => exact connect_effect stepped
    | setCombiner combiner => exact setCombiner_effect stepped
    | invoke => exact invoke_effect stepped
    | traverse kind => exact traverse_effect stepped
    | destroy => exact destroy_effect stepped
    | «section» => exact sectionStep_effect stepped
    | promote b => exact promote_effect stepped
    | disconnect b => exact disconnect_effect stepped
    | connected b => exact connected_effect stepped
    | clearTracked i => exact clearTracked_effect stepped
    | lockNext i => exact lockNext_effect stepped
    | reachEnd i => exact reachEnd_effect stepped
    | dereference i => exact dereference_effect stepped
    | slotReturns i result => exact slotReturns_effect stepped
    | slotThrows i expiredSlot => exact slotThrows_effect stepped
    | increment i => exact increment_effect stepped
    | finish i => exact finish_effect stepped
    | janitor i => exact janitor_effect stepped
    | destroyCache i => exact destroyCache_effect stepped
    | releaseState i => exact releaseState_effect stepped
    | advance t => exact advance_effect stepped
    | release n => exact release_effect stepped
    | acquire o => exact acquire_effect stepped
    | drop o => exact drop_effect stepped
    | constructBlock b => exact constructBlock_effect stepped
    | copyBlock k => exact copyBlock_effect stepped
    | block k => exact block_effect stepped
    | unblock k => exact unblock_effect stepped

/-- While a client holds the mutex, the others can at most destroy the signal. -/
theorem Effect.excludes {a : Action σ} (effect : Effect w a w') (taken : w.critical ≠ none)
    (outsider : a ≠ .section) :
    w'.critical = w.critical ∧ (w'.heap = w.heap ∨ a = .destroy) := by
  cases effect with
  | sweepStart impl it count grabTracked after free => exact absurd free taken
  | copyAndSweep impl grabTracked after free => exact absurd free taken
  | assignCombiner combiner impl free => exact absurd free taken
  | replaceCombiner combiner impl free => exact absurd free taken
  | start impl free => exact absurd free taken
  | traverse impl kind free => exact absurd free taken
  | grabStart client b free => exact absurd free taken
  | disconnect b free => exact absurd free taken
  | throwExpired i inv b free => exact absurd free taken
  | walkDisconnect t tr b free => exact absurd free taken
  | reachEnd i inv free => exact absurd free taken
  | destroyCache i inv free => exact absurd free taken
  | containsStart t tr b weakPimpl pimpl free => exact absurd free taken
  | destroy impl present => exact ⟨rfl, .inr rfl⟩
  | move i inv inv' found move => exact ⟨rfl, .inl rfl⟩
  | walk t tr tr' found walk => exact ⟨rfl, .inl rfl⟩
  | outside w' outside => exact ⟨outside.critical, .inl outside.heap⟩
  | fault u f cause u_eq =>
      rcases u_eq with rfl | ⟨grabTracked, b, rfl⟩
      · exact ⟨rfl, .inl rfl⟩
      · obtain ⟨store, same⟩ := checkExpired_store w grabTracked b
        rw [same]
        exact ⟨rfl, .inl rfl⟩
  | _ => exact absurd rfl outsider

end World

end Signals2
