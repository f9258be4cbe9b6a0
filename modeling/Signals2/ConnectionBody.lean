/-
Slots and connection bodies: the data a signal keeps for each connection.

A tracked object is known by an identity.  Whether it is still alive is a
property of the state that holds its owners, so nothing here can tell.
-/

import Mathlib.Logic.Function.Basic
import Signals2.SlotGroups

namespace Signals2

/-- The template arguments of a signal that its data depends on. -/
structure SignalTemplate where
  Group : Type
  Function : Type
  Combiner : Type
  Result : Type

abbrev ObjectId := Nat
abbrev BodyId := Nat
abbrev BlockerId := Nat

/-- `void_weak_ptr_variant`: a weak pointer to the pointee of a
`signals2::trackable`, to a boost-managed object, or to a foreign one. -/
inductive VoidWeakPtr where
  | trackable (object : ObjectId)
  | boost (object : ObjectId)
  | foreign (object : ObjectId)
deriving DecidableEq, Repr

def VoidWeakPtr.object : VoidWeakPtr → ObjectId
  | .trackable object => object
  | .boost object => object
  | .foreign object => object

/-- Trackable pointees are never promoted. -/
def VoidWeakPtr.promotable : VoidWeakPtr → Bool
  | .trackable _ => false
  | .boost _ => true
  | .foreign _ => true

/-- What a slot function object wraps: a plain functor, or the weak reference
to the implementation of a signal that was connected as a slot. -/
inductive SlotTarget (Function : Type) where
  | functor (function : Function)
  | weakSignal (weakPimpl : ObjectId)

/-- The slot function, directly or inside a `bound_extended_slot_function`. -/
inductive SlotFunction (Function : Type) where
  | plain (target : SlotTarget Function)
  | boundExtended (target : SlotTarget Function)

def SlotFunction.target {Function : Type} : SlotFunction Function → SlotTarget Function
  | .plain target => target
  | .boundExtended target => target

/-- A slot.  Its constructor tracks a signal given as slot function, and nothing
untracks an object again. -/
structure Slot (σ : SignalTemplate) where
  slotFunction : SlotFunction σ.Function
  trackedObjects : List VoidWeakPtr
  tracksSignal : ∀ weakPimpl, slotFunction.target = .weakSignal weakPimpl →
    VoidWeakPtr.boost weakPimpl ∈ trackedObjects

namespace Slot

variable {σ : SignalTemplate}

/-- `init_slot_function` for a functor; `visited` is what the visitor of tracked
objects finds in its bound arguments. -/
def ofFunctor (function : σ.Function) (visited : List VoidWeakPtr) : Slot σ :=
  { slotFunction := .plain (.functor function)
    trackedObjects := visited
    tracksSignal := by intro weakPimpl impossible; cases impossible }

/-- `init_slot_function` for a signal. -/
def ofSignal (pimpl : ObjectId) : Slot σ :=
  { slotFunction := .plain (.weakSignal pimpl)
    trackedObjects := [.boost pimpl]
    tracksSignal := by
      intro weakPimpl same
      cases same
      exact List.mem_cons_self }

def track (slot : Slot σ) (tracked : VoidWeakPtr) : Slot σ :=
  { slot with
    trackedObjects := slot.trackedObjects ++ [tracked]
    tracksSignal := by
      intro weakPimpl same
      exact List.mem_append_left _ (slot.tracksSignal weakPimpl same) }

/-- `replace_slot_function` as `connect_extended` uses it: the bound slot wraps
the extended function and takes over its tracked objects. -/
def replaceSlotFunction (extSlot : Slot σ) : Slot σ :=
  { slotFunction := .boundExtended extSlot.slotFunction.target
    trackedObjects := extSlot.trackedObjects
    tracksSignal := extSlot.tracksSignal }

end Slot

/-- `connection_body` with its base.  `releases` counts the runs of
`release_slot`; no code reads it.  The source counts references in an `unsigned`, which
wraps only when 2^32 calls of one slot are under way at once. -/
structure ConnectionBody (σ : SignalTemplate) where
  connected : Bool
  slotRefcount : Nat
  slot : Option (Slot σ)
  weakBlocker : Option BlockerId
  groupKey : GroupKey σ.Group
  releases : Nat

namespace ConnectionBody

variable {σ : SignalTemplate}

/-- Memory that holds no connection body. -/
def unallocated : ConnectionBody σ :=
  { connected := false
    slotRefcount := 0
    slot := none
    weakBlocker := none
    groupKey := .frontUngroupedSlots
    releases := 0 }

/-- The constructor, with the key that `set_group_key` stores. -/
def construct (slot : Slot σ) (groupKey : GroupKey σ.Group) : ConnectionBody σ :=
  { connected := true
    slotRefcount := 1
    slot := some slot
    weakBlocker := none
    groupKey := groupKey
    releases := 0 }

/-- What a released slot tracks can no longer be asked. -/
def trackedObjects (body : ConnectionBody σ) : List VoidWeakPtr :=
  match body.slot with
  | none => []
  | some slot => slot.trackedObjects

end ConnectionBody

/-- The ways a step can go wrong: a failed assertion or an access to something
that is no longer there. -/
inductive Fault where
  | incSlotRefcount
  | decSlotRefcount
  | eraseAssertion
  | danglingIterator
  | releasedSlot
  | expiredSignal
  | destroyedImpl
deriving DecidableEq, Repr

/-- All connection bodies, the garbage of the lock that is held, and the first
thing that went wrong.  A body is meaningful below `nextBody`. -/
structure BodyStore (σ : SignalTemplate) where
  bodies : BodyId → ConnectionBody σ
  nextBody : Nat
  garbage : List BodyId
  fault : Option Fault

/-! ### `connection_body_base` -/

namespace BodyStore

variable {σ : SignalTemplate} (store : BodyStore σ)

def setBody (b : BodyId) (body : ConnectionBody σ) : BodyStore σ :=
  { store with bodies := Function.update store.bodies b body }

/-- `add_trash(release_slot())`. -/
def releaseSlot (b : BodyId) : BodyStore σ :=
  { store.setBody b
      { store.bodies b with slot := none, releases := (store.bodies b).releases + 1 } with
    garbage := store.garbage ++ [b] }

def incSlotRefcount (b : BodyId) : BodyStore σ :=
  if (store.bodies b).slotRefcount = 0 then { store with fault := some .incSlotRefcount }
  else
    store.setBody b { store.bodies b with slotRefcount := (store.bodies b).slotRefcount + 1 }

def decSlotRefcount (b : BodyId) : BodyStore σ :=
  if (store.bodies b).slotRefcount = 0 then { store with fault := some .decSlotRefcount }
  else
    let decremented := store.setBody b
      { store.bodies b with slotRefcount := (store.bodies b).slotRefcount - 1 }
    if (store.bodies b).slotRefcount - 1 = 0 then decremented.releaseSlot b else decremented

/-- `slot_call_iterator_cache::set_active_slot`, from the slot that was active. -/
def setActiveSlot (old new : Option BodyId) : BodyStore σ :=
  let released := match old with
    | none => store
    | some b => store.decSlotRefcount b
  match new with
  | none => released
  | some b => released.incSlotRefcount b

def nolockDisconnect (b : BodyId) : BodyStore σ :=
  if (store.bodies b).connected then
    (store.setBody b { store.bodies b with connected := false }).decSlotRefcount b
  else store

/-- The body that `make_shared` and `set_group_key` make for a new connection. -/
def newConnectionBody (slot : Slot σ) (groupKey : GroupKey σ.Group) : BodyStore σ :=
  { store.setBody store.nextBody (.construct slot groupKey) with
    nextBody := store.nextBody + 1 }

variable {store}

theorem setBody_self (b : BodyId) (body : ConnectionBody σ) :
    (store.setBody b body).bodies b = body := by
  simp [setBody]

theorem setBody_other {b other : BodyId} (body : ConnectionBody σ) (apart : other ≠ b) :
    (store.setBody b body).bodies other = store.bodies other := by
  simp [setBody, apart]

theorem decSlotRefcount_connected (b other : BodyId) :
    ((store.decSlotRefcount b).bodies other).connected = (store.bodies other).connected := by
  unfold decSlotRefcount
  split
  · rfl
  · by_cases same : other = b
    · subst same
      dsimp only
      split <;> simp [releaseSlot, setBody]
    · dsimp only
      split <;> simp [releaseSlot, setBody, same]

theorem nolockDisconnect_connected (b : BodyId) :
    ((store.nolockDisconnect b).bodies b).connected = false := by
  unfold nolockDisconnect
  split
  · rw [decSlotRefcount_connected, setBody_self]
  · rename_i disconnected
    simpa using disconnected

/-- A disconnection concerns one body. -/
theorem nolockDisconnect_apart {b other : BodyId} (apart : other ≠ b) :
    (store.nolockDisconnect b).bodies other = store.bodies other := by
  unfold nolockDisconnect decSlotRefcount
  split
  · split
    · exact setBody_other _ apart
    · dsimp only
      split <;> simp [releaseSlot, setBody, apart]
  · rfl

theorem nolockDisconnect_other {b other : BodyId} (apart : other ≠ b) :
    ((store.nolockDisconnect b).bodies other).connected = (store.bodies other).connected :=
  congrArg ConnectionBody.connected (nolockDisconnect_apart apart)

theorem setActiveSlot_connected (old new : Option BodyId) (b : BodyId) :
    ((store.setActiveSlot old new).bodies b).connected = (store.bodies b).connected := by
  have inc : ∀ (other : BodyId) (store : BodyStore σ),
      ((store.incSlotRefcount other).bodies b).connected = (store.bodies b).connected := by
    intro other store
    unfold incSlotRefcount
    split
    · rfl
    · by_cases same : b = other
      · rw [same, setBody_self]
      · rw [setBody_other _ same]
  unfold setActiveSlot
  cases old with
  | none =>
      cases new with
      | none => rfl
      | some added => exact inc added store
  | some held =>
      cases new with
      | none => exact decSlotRefcount_connected held b
      | some added => exact (inc added _).trans (decSlotRefcount_connected held b)

theorem newConnectionBody_new (slot : Slot σ) (groupKey : GroupKey σ.Group) :
    (store.newConnectionBody slot groupKey).bodies store.nextBody =
      .construct slot groupKey := by
  simp [newConnectionBody, setBody]

theorem newConnectionBody_old (slot : Slot σ) (groupKey : GroupKey σ.Group)
    {b : BodyId} (apart : b ≠ store.nextBody) :
    (store.newConnectionBody slot groupKey).bodies b = store.bodies b := by
  simp [newConnectionBody, setBody, apart]

end BodyStore

end Signals2
