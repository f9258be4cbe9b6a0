/-
The machine: every atomic step that a client of one signal, a running
invocation or traversal, or an owner outside the library can take.

Any number of clients interleave, in one thread or in several: operations made
by a running slot, nested invocations and concurrent threads are all runs of
this machine.  What needs the mutex is enabled only while no critical section
holds it.
-/

import Signals2.Library.Runs
import Signals2.SignalImpl

namespace Signals2

open LinkedLists

variable {σ : SignalTemplate}

inductive Action (σ : SignalTemplate) where
  -- operations of the signal
  | connect (arguments : ConnectArguments σ)
  | setCombiner (combiner : σ.Combiner)
  | invoke
  | traverse (kind : TraversalKind σ)
  | destroy
  -- the client that holds the mutex
  | section
  -- connection objects
  | promote (b : BodyId)
  | disconnect (b : BodyId)
  | connected (b : BodyId)
  -- a running invocation
  | clearTracked (i : InvocationId)
  | lockNext (i : InvocationId)
  | reachEnd (i : InvocationId)
  | dereference (i : InvocationId)
  | slotReturns (i : InvocationId) (result : σ.Result)
  | slotThrows (i : InvocationId) (expiredSlot : Bool)
  | increment (i : InvocationId)
  | finish (i : InvocationId)
  | janitor (i : InvocationId)
  | destroyCache (i : InvocationId)
  | releaseState (i : InvocationId)
  -- a running traversal
  | advance (t : TraversalId)
  -- operations that have unlocked
  | release (n : Nat)
  -- owners of tracked objects
  | acquire (o : ObjectId)
  | drop (o : ObjectId)
  -- shared connection blocks
  | constructBlock (b : Option BodyId)
  | copyBlock (k : BlockId)
  | block (k : BlockId)
  | unblock (k : BlockId)

namespace World

/-- The signal after its constructor; objects outside may have any owners. -/
def construct (combiner : σ.Combiner) (defaultCompare groupCompare : σ.Group → σ.Group → Bool)
    (owners : ObjectId → Nat) : World σ :=
  { bodies := fun _ => .unallocated
    nextBody := 0
    garbage := []
    fault := none
    heap := Heap.construct combiner defaultCompare groupCompare
    invocations := []
    traversals := []
    critical := none
    trash := []
    owners := owners
    blocks := []
    nextBlocker := 0
    returned := [] }

variable (w : World σ)

/-- A client can lock the mutex and the signal is still there. -/
def lockImpl : Option SignalImpl :=
  match w.critical with
  | some _ => none
  | none => w.heap.impl

/-! ### Operations of the signal -/

def connect (arguments : ConnectArguments σ) : Option (World σ) :=
  w.lockImpl.map fun impl => w.nolockForceUniqueConnectionList impl (.connect arguments)

def setCombiner (combiner : σ.Combiner) : Option (World σ) :=
  w.lockImpl.map fun impl =>
    if w.unique impl.sharedState then w.setHeap (w.heap.assignCombiner impl combiner)
    else w.setHeap (w.heap.replaceCombiner impl combiner)

/-- `signal_impl::operator()` up to the local copy of the shared state. -/
def invoke : Option (World σ) :=
  w.lockImpl.map fun impl =>
    if w.unique impl.sharedState then w.nolockCleanupConnections impl false 1 .invoke
    else w.startInvocation impl

/-- `get_readable_state`, and the bounds of the walk that follows. -/
def traverse (kind : TraversalKind σ) : Option (World σ) :=
  w.lockImpl.map fun impl =>
    { w with traversals := w.traversals ++ [w.newTraversal impl kind] }

/-- The last owner of the `signal_impl` lets go, at any moment. -/
def destroy : Option (World σ) :=
  w.heap.impl.map fun _ => w.setHeap { w.heap with impl := none }

/-! ### Connection objects -/

/-- An operation of a connection object or of a block promotes its weak reference, which it
does before it waits for the mutex, and keeps the body until it returns. -/
def promote (b : BodyId) : Option (World σ) :=
  if w.bodyAlive b then some (w.keepBody b) else none

/-- The promoted body is released last, when what the lock collected has been destroyed. -/
def disconnect (b : BodyId) : Option (World σ) :=
  if w.critical.isSome then none
  else if w.bodyAlive b then some ((w.nolockDisconnect b).keepBody b).unlock
  else some w

def connected (b : BodyId) : Option (World σ) :=
  if w.critical.isSome then none
  else if w.bodyAlive b then some (w.enterGrab .connected b)
  else some { w with returned := (b, false) :: w.returned }

/-! ### A running invocation -/

/-- `cache->tracked_ptrs.clear()`, one element at a time from the back; also the
destruction of the member at the end. -/
def clearTracked (i : InvocationId) : Option (World σ) :=
  match w.invocations[i]? with
  | none => none
  | some inv =>
      if inv.trackedPtrs = [] ∨ w.grabbing i then none
      else if inv.phase = .searching ∧ inv.iter.node ≠ none ∨ inv.phase = .releasing then
        some (w.setInvocation i { inv with trackedPtrs := inv.trackedPtrs.dropLast })
      else none

/-- The next round of the loop of `lock_next_callable`, after the clear. -/
def lockNext (i : InvocationId) : Option (World σ) :=
  match w.invocations[i]? with
  | none => none
  | some inv =>
      if inv.phase = .searching ∧ inv.iter.node ≠ none ∧ inv.trackedPtrs = [] ∧
          w.critical = none then
        match w.bodyAt inv.localState inv.iter with
        | none => some (w.fail .danglingIterator)
        | some b => some (w.enterGrab (.iterator i) b)
      else none

/-- `lock_next_callable` after its loop has come to the end of the list. -/
def reachEnd (i : InvocationId) : Option (World σ) :=
  match w.invocations[i]? with
  | none => none
  | some inv =>
      if inv.phase = .searching ∧ inv.iter.node = none then
        if inv.callableIter.node = none then
          some (w.setInvocation i { inv with phase := .ready })
        else if w.critical.isSome then none
        else
          match w.bodyAt inv.localState inv.callableIter with
          | none => some (w.fail .danglingIterator)
          | some _ =>
              some ((w.setActiveSlot inv.activeSlot none).setInvocation i
                { inv with
                  phase := .ready
                  callableIter := inv.iter
                  activeSlot := none }).unlock
      else none

/-- Dereferencing the slot call iterator: nothing with a cached result, else
the call of the slot function starts. -/
def dereference (i : InvocationId) : Option (World σ) :=
  match w.invocations[i]? with
  | none => none
  | some inv =>
      if inv.phase = .ready ∧ inv.iter.node ≠ none then
        if inv.result.isSome then some w
        else
          match w.bodyAt inv.localState inv.iter with
          | none => some (w.fail .danglingIterator)
          | some b =>
              match (w.bodies b).slot with
              | none => some (w.fail .releasedSlot)
              | some slot =>
                  let calling := w.setInvocation i { inv with phase := .running }
                  match slot.slotFunction.target with
                  | .functor _ => some calling
                  | .weakSignal weakPimpl =>
                      if w.owned weakPimpl then some calling
                      else some (w.fail .expiredSignal)
      else none

def slotReturns (i : InvocationId) (result : σ.Result) : Option (World σ) :=
  match w.invocations[i]? with
  | none => none
  | some inv =>
      if inv.phase = .running then
        some (w.setInvocation i { inv with phase := .ready, result := some result })
      else none

/-- An exception leaves the slot function.  The iterator disconnects the slot
for `expired_slot`; either way the exception goes on to the combiner. -/
def slotThrows (i : InvocationId) (expiredSlot : Bool) : Option (World σ) :=
  match w.invocations[i]? with
  | none => none
  | some inv =>
      if inv.phase = .running then
        let thrown := w.setInvocation i { inv with phase := .ready }
        if expiredSlot then
          if w.critical.isSome then none
          else
            match w.bodyAt inv.localState inv.iter with
            | none => some (w.fail .danglingIterator)
            | some b => some (thrown.nolockDisconnect b).unlock
        else some thrown
      else none

/-- `increment` up to the first test of `lock_next_callable`. -/
def increment (i : InvocationId) : Option (World σ) :=
  match w.invocations[i]? with
  | none => none
  | some inv =>
      if inv.phase = .ready ∧ inv.iter.node ≠ none then
        if w.bodyAt inv.localState inv.iter = none then some (w.fail .danglingIterator)
        else
          let next := w.iteratorAfter inv.localState inv.iter
          some (w.setInvocation i
            { inv with
              iter := next
              result := none
              phase := if next = inv.callableIter then .ready else .searching })
      else none

/-- The combiner returns or lets an exception through, at any position. -/
def finish (i : InvocationId) : Option (World σ) :=
  match w.invocations[i]? with
  | none => none
  | some inv =>
      if inv.phase = .ready then some (w.setInvocation i { inv with phase := .janitor })
      else none

/-- `~invocation_janitor`, with the start of `force_cleanup_connections`. -/
def janitor (i : InvocationId) : Option (World σ) :=
  match w.invocations[i]? with
  | none => none
  | some inv =>
      if inv.phase = .janitor then
        let left := w.setInvocation i { inv with phase := .destructing }
        if inv.connectedSlotCount < inv.disconnectedSlotCount then
          if w.critical.isSome then none
          else
            match w.heap.impl with
            | none => some (w.fail .destroyedImpl)
            | some impl =>
                let current := (w.heap.states impl.sharedState).connectionBodies
                if inv.localState.map (fun s => (w.heap.states s).connectionBodies) ≠
                    some current then
                  some left
                else
                  let copied := if w.unique impl.sharedState then w
                    else w.setHeap (w.heap.copyConnectionBodies impl)
                  match copied.heap.impl with
                  | none => none
                  | some impl' =>
                      some (copied.enter (.cleanupConnections
                        (copied.heap.connectionBodies impl').begin 0 0 false
                        (.forceCleanup i)))
        else some left
      else none

/-- The body of `~slot_call_iterator_cache`. -/
def destroyCache (i : InvocationId) : Option (World σ) :=
  match w.invocations[i]? with
  | none => none
  | some inv =>
      if inv.phase = .destructing then
        match inv.activeSlot with
        | none => some (w.setInvocation i { inv with phase := .releasing })
        | some b =>
            if w.critical.isSome then none
            else
              some ((w.setActiveSlot (some b) none).setInvocation i
                { inv with phase := .releasing, activeSlot := none }).unlock
      else none

/-- The local copy of the shared state is released last. -/
def releaseState (i : InvocationId) : Option (World σ) :=
  match w.invocations[i]? with
  | none => none
  | some inv =>
      if inv.phase = .releasing ∧ inv.trackedPtrs = [] then
        some (w.setInvocation i { inv with phase := .done, localState := none })
      else none

/-! ### A running traversal -/

/-- The body of `do_disconnect` at one connection.  Testing a connected signal
promotes the weak reference to it. -/
def doDisconnect (t : TraversalId) (tr : Traversal σ) (b : BodyId) (next : Iterator)
    (argument : SlotArgument σ.Function) : World σ :=
  let skipped := w.setTraversal t { tr with it := next }
  if (w.bodies b).connected = false then skipped
  else
    match (w.bodies b).slot with
    | none => w.fail .releasedSlot
    | some slot =>
        match slot.slotFunction, argument with
        | .plain (.functor function), .functor equal =>
            if equal function then (skipped.nolockDisconnect b).unlock else skipped
        | .boundExtended (.functor function), .functor equal =>
            if equal function then (skipped.nolockDisconnect b).unlock else skipped
        | .plain (.weakSignal weakPimpl), .signal pimpl =>
            w.enter (.contains t b weakPimpl pimpl (w.lockWeakPtr (.boost weakPimpl)))
        | _, _ => skipped

/-- The next round of the loop of a traversal, or its end with the local copy
of the shared state released. -/
def advance (t : TraversalId) : Option (World σ) :=
  match w.traversals[t]? with
  | none => none
  | some tr =>
      if tr.localState = none then none
      else if tr.it = tr.endIt ∨ tr.answered then
        some (w.setTraversal t { tr with localState := none })
      else if w.critical.isSome then none
      else
        match w.bodyAt tr.localState tr.it with
        | none => some (w.fail .danglingIterator)
        | some b =>
            let next := w.iteratorAfter tr.localState tr.it
            match tr.kind with
            | .disconnectAllSlots | .disconnectGroup _ =>
                some ((w.setTraversal t { tr with it := next }).nolockDisconnect b).unlock
            | .doDisconnect argument => some (w.doDisconnect t tr b next argument)
            | .numSlots | .empty => some (w.enterGrab (.traversal t) b)

/-! ### Released references, owners and blocks -/

/-- Some operation that has unlocked releases the next of its references. -/
def release (n : Nat) : Option (World σ) :=
  if n < w.trash.length then some { w with trash := w.trash.eraseIdx n } else none

/-- An owner outside the library copies a strong reference or promotes a weak one. -/
def acquire (o : ObjectId) : Option (World σ) :=
  if w.owned o then
    some { w with owners := Function.update w.owners o (w.owners o + 1) }
  else none

def drop (o : ObjectId) : Option (World σ) :=
  if 0 < w.owners o then
    some { w with owners := Function.update w.owners o (w.owners o - 1) }
  else none

def constructBlock (b : Option BodyId) : Option (World σ) :=
  some { w with blocks := w.blocks ++ [{ weakConnectionBody := b, blocker := none }] }

def copyBlock (k : BlockId) : Option (World σ) :=
  w.blocks[k]?.map fun original => { w with blocks := w.blocks ++ [original] }

/-- `get_blocker`: the body's blocker, made anew when nothing holds one. -/
def getBlocker (b : BodyId) : World σ × BlockerId :=
  match (w.bodies b).weakBlocker with
  | some x =>
      if w.blockerAlive x then (w, x)
      else
        ({ w.setBody b { w.bodies b with weakBlocker := some w.nextBlocker } with
            nextBlocker := w.nextBlocker + 1 }, w.nextBlocker)
  | none =>
      ({ w.setBody b { w.bodies b with weakBlocker := some w.nextBlocker } with
          nextBlocker := w.nextBlocker + 1 }, w.nextBlocker)

/-- `shared_connection_block::block`; a block on a body that is gone gets a
blocker of its own. -/
def block (k : BlockId) : Option (World σ) :=
  match w.blocks[k]? with
  | none => none
  | some connectionBlock =>
      if connectionBlock.blocker.isSome then some w
      else
        match connectionBlock.weakConnectionBody.filter w.bodyAlive with
        | none =>
            some { w with
              blocks := w.blocks.set k
                { connectionBlock with blocker := some w.nextBlocker }
              nextBlocker := w.nextBlocker + 1 }
        | some b =>
            if w.critical.isSome then none
            else
              let (locked, x) := w.getBlocker b
              some { locked with
                blocks := w.blocks.set k { connectionBlock with blocker := some x } }

def unblock (k : BlockId) : Option (World σ) :=
  w.blocks[k]?.map fun connectionBlock =>
    { w with blocks := w.blocks.set k { connectionBlock with blocker := none } }

/-- No step follows a fault. -/
def step (w : World σ) (action : Action σ) : Option (World σ) :=
  if w.fault.isSome then none
  else
    match action with
    | .connect arguments => w.connect arguments
    | .setCombiner combiner => w.setCombiner combiner
    | .invoke => w.invoke
    | .traverse kind => w.traverse kind
    | .destroy => w.destroy
    | .section => w.sectionStep
    | .promote b => w.promote b
    | .disconnect b => w.disconnect b
    | .connected b => w.connected b
    | .clearTracked i => w.clearTracked i
    | .lockNext i => w.lockNext i
    | .reachEnd i => w.reachEnd i
    | .dereference i => w.dereference i
    | .slotReturns i result => w.slotReturns i result
    | .slotThrows i expiredSlot => w.slotThrows i expiredSlot
    | .increment i => w.increment i
    | .finish i => w.finish i
    | .janitor i => w.janitor i
    | .destroyCache i => w.destroyCache i
    | .releaseState i => w.releaseState i
    | .advance t => w.advance t
    | .release n => w.release n
    | .acquire o => w.acquire o
    | .drop o => w.drop o
    | .constructBlock b => w.constructBlock b
    | .copyBlock k => w.copyBlock k
    | .block k => w.block k
    | .unblock k => w.unblock k

end World

/-- Groups, slot functions, combiners and results are numbers. -/
abbrev natSignal : SignalTemplate :=
  { Group := Nat, Function := Nat, Combiner := Nat, Result := Nat }

/-- A new signal of numbers whose combiner is `0`, with both comparisons `<`. -/
def natStart : World natSignal :=
  World.construct 0 (fun a b => decide (a < b)) (fun a b => decide (a < b)) fun _ => 0

def connectBack (function : Nat) : Action natSignal :=
  .connect { group := none, slot := .ofFunctor function [], position := .atBack }

def connectGroup (group function : Nat) (position : ConnectPosition) : Action natSignal :=
  .connect { group := some group, slot := .ofFunctor function [], position := position }

end Signals2
