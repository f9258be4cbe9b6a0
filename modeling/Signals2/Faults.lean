/-
Where a fault comes from.  The bookkeeping of the slot reference counts rules out
the failed assertions of `connection_body_base`; every other fault has one of the
causes listed with the effects of a step.
-/

import Signals2.SnapshotIsolation

namespace Signals2

open LinkedLists

variable {σ : SignalTemplate}

namespace BodyStore

variable {store : BodyStore σ}

/-- The assertions of `connection_body_base` are the only faults a body store
comes to by itself. -/
def FaultFrame (before after : Option Fault) : Prop :=
  after = before ∨ after = some .incSlotRefcount ∨ after = some .decSlotRefcount

theorem FaultFrame.trans {first second third : Option Fault} (left : FaultFrame first second)
    (right : FaultFrame second third) : FaultFrame first third := by
  rcases right with same | raised
  · rw [same]
    exact left
  · exact .inr raised

theorem incSlotRefcount_fault (b : BodyId) :
    FaultFrame store.fault (store.incSlotRefcount b).fault := by
  unfold incSlotRefcount
  split
  · exact .inr (.inl rfl)
  · exact .inl rfl

theorem decSlotRefcount_fault (b : BodyId) :
    FaultFrame store.fault (store.decSlotRefcount b).fault := by
  unfold decSlotRefcount
  split
  · exact .inr (.inr rfl)
  · dsimp only
    split <;> exact .inl rfl

theorem nolockDisconnect_fault (b : BodyId) :
    FaultFrame store.fault (store.nolockDisconnect b).fault := by
  unfold nolockDisconnect
  split
  · exact decSlotRefcount_fault b
  · exact .inl rfl

theorem setActiveSlot_fault (old new : Option BodyId) :
    FaultFrame store.fault (store.setActiveSlot old new).fault := by
  unfold setActiveSlot
  cases old with
  | none =>
      cases new with
      | none => exact .inl rfl
      | some b => exact incSlotRefcount_fault b
  | some held =>
      cases new with
      | none => exact decSlotRefcount_fault held
      | some b => exact (decSlotRefcount_fault held).trans (incSlotRefcount_fault b)

end BodyStore

namespace World

variable {w w' u : World σ} {a : Action σ}

open BodyStore

theorem Ended.fault {b : BodyId} {todo : List VoidWeakPtr} {locked : Option (Option ObjectId)}
    (ended : Ended w b todo locked u) : FaultFrame w.fault u.fault := by
  cases ended with
  | grabbed locked => exact .inl rfl
  | expired p rest expired => exact nolockDisconnect_fault b

theorem checkExpired_fault (grabTracked : Bool) (b : BodyId) :
    FaultFrame w.fault (w.checkExpired grabTracked b).fault := by
  unfold checkExpired disconnectExpiredSlot
  split
  · split
    · exact .inl rfl
    · split
      · exact nolockDisconnect_fault b
      · exact .inl rfl
  · exact .inl rfl

theorem tested_fault {b : BodyId} {condition : Prop} [Decidable condition]
    (tested : u = if condition then w.nolockDisconnect b else w) :
    FaultFrame w.fault u.fault := by
  subst tested
  split
  · exact nolockDisconnect_fault b
  · exact .inl rfl

private theorem Effect.fault_frame (effect : Effect w a w') :
    FaultFrame w.fault w'.fault ∨ ∃ f, w'.fault = some f ∧ Cause w a f := by
  cases effect with
  | keep client b p rest locked critical =>
      left
      unfold insertLocked
      split
      · split <;> exact .inl rfl
      · exact .inl rfl
  | answer b todo locked u critical ended => exact .inl ended.fault
  | count t b todo locked u tr critical ended found => exact .inl ended.fault
  | commit i b locked inv critical found connected unblocked =>
      exact .inl (setActiveSlot_fault inv.activeSlot (some b))
  | skip i b todo locked u inv critical ended found blocked => exact .inl ended.fault
  | lost client b todo locked u critical ended missing => exact .inl ended.fault
  | contains t b weakPimpl pimpl locked u tr critical tested found =>
      have frame := tested_fault tested
      exact .inl frame
  | containsLost t b weakPimpl pimpl locked u critical tested missing =>
      have frame := tested_fault tested
      exact .inl frame
  | sweepErase it i count grabTracked after impl b list next critical present inside more here
      dead erased => exact .inl (checkExpired_fault grabTracked b)
  | sweepSkip it i count grabTracked after impl b critical present inside more here connected =>
      exact .inl (checkExpired_fault grabTracked b)
  | sweepEnd it i count grabTracked after impl critical present done =>
      left
      unfold finishCleanup
      cases after with
      | connect arguments => exact .inl rfl
      | invoke => exact .inl rfl
      | forceCleanup i =>
          dsimp only
          split <;> exact .inl rfl
  | disconnect b free alive => exact .inl (nolockDisconnect_fault b)
  | throwExpired i inv b free found phase here => exact .inl (nolockDisconnect_fault b)
  | walkDisconnect t tr b free found inside here targets =>
      exact .inl (nolockDisconnect_fault b)
  | reachEnd i inv free found phase atEnd callable =>
      exact .inl (setActiveSlot_fault inv.activeSlot none)
  | destroyCache i inv free found phase active =>
      exact .inl (setActiveSlot_fault inv.activeSlot none)
  | outside w' outside => exact .inl (.inl outside.fault)
  | fault u f cause u_eq => exact .inr ⟨f, rfl, cause⟩
  | _ => exact .inl (.inl rfl)

/-- A step ends in a fault only for a cause. -/
theorem Counted.cause (counted : w.Counted) (sound : w.fault = none) (effect : Effect w a w')
    {f : Fault} (raised : w'.fault = some f) : Cause w a f := by
  have later := (counted.step effect).sound
  rw [raised] at later
  rcases effect.fault_frame with frame | ⟨f', raised', cause⟩
  · rw [raised, sound] at frame
    rcases frame with none | inc | dec
    · cases none
    · exact absurd inc later.1
    · exact absurd dec later.2
  · rw [raised] at raised'
    cases raised'
    exact cause

end World

end Signals2
