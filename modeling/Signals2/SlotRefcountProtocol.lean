/-
The slot reference count protocol over whole runs.  The counts balance in every
run; that a slot about to be called is still there also needs the snapshots to
stay as they are, hence `set_combiner` to keep away from invocations in progress.
-/

import Signals2.Faults

namespace Signals2

open LinkedLists

variable {σ : SignalTemplate}

namespace World

variable {w w' : World σ} {a : Action σ}

/-- `set_combiner` is not called while an invocation is in progress. -/
def CombinerSetAlone (w : World σ) (a : Action σ) : Prop :=
  ∀ combiner, a = .setCombiner combiner → ∀ inv ∈ w.invocations, inv.localState = none

theorem CombinerSetAlone.unread (alone : CombinerSetAlone w a) :
    ListUnread .invocation w a := by
  intro combiner same s current r member
  obtain ⟨inv, inside, state⟩ := List.mem_map.mp member
  rw [alone combiner same inv inside] at state
  cases state

theorem CombinerSetAlone.of_forall {actions : List (Action σ)}
    (others : ∀ c, Action.setCombiner c ∉ actions) :
    Runs.Guarded World.step CombinerSetAlone w actions :=
  .of_forall fun _ member _ combiner same => absurd (same ▸ member) (others combiner)

/-- The body that a committed invocation stands on has its slot active. -/
theorem Isolated.committed (isolated : w.Isolated) {inv : Invocation σ}
    (member : inv ∈ w.invocations) (phase : inv.phase = .ready ∨ inv.phase = .running)
    (inside : inv.iter.node ≠ none) :
    ∃ b, w.bodyAt inv.localState inv.iter = some b ∧ inv.activeSlot = some b := by
  have placed := isolated.positioned.placed inv member
  have same := placed.committed phase inside
  have callable := placed.callable (.inr phase)
  rw [same] at callable
  exact callable inside

theorem Counted.slot_of_active (counted : w.Counted) {inv : Invocation σ}
    (member : inv ∈ w.invocations) {b : BodyId} (active : inv.activeSlot = some b) :
    ∃ slot, (w.bodies b).slot = some slot := by
  have holders : 0 < w.activeSlots.count (some b) :=
    List.count_pos_iff.mpr (List.mem_map.mpr ⟨inv, member, active⟩)
  have balanced := counted.balanced b
  refine Option.isSome_iff_exists.mp (balanced.slot.mpr ?_)
  rw [balanced.refcount]
  omega

theorem Counted.slot_of_connected (counted : w.Counted) {b : BodyId}
    (connected : (w.bodies b).connected = true) : ∃ slot, (w.bodies b).slot = some slot := by
  have balanced := counted.balanced b
  refine Option.isSome_iff_exists.mp (balanced.slot.mpr ?_)
  rw [balanced.refcount, if_pos connected]
  omega

theorem Counted.slotRefcount (counted : w.Counted) (b : BodyId) :
    (w.bodies b).slotRefcount = (if (w.bodies b).connected then 1 else 0) +
      w.invocations.countP (fun inv => inv.activeSlot = some b) := by
  rw [(counted.balanced b).refcount, activeSlots, List.count, List.countP_map]
  congr 1
  refine List.countP_congr fun inv _ => ?_
  simp

/-- No step of a run finds the slot it needs released. -/
theorem Isolated.not_released (isolated : w.Isolated) : ¬ Cause w a .releasedSlot := by
  intro cause
  cases cause with
  | released i inv b found phase inside here gone =>
      have member := List.mem_of_getElem? found
      obtain ⟨other, here', active⟩ := isolated.committed member (.inl phase) inside
      cases here.symm.trans here'
      obtain ⟨slot, held⟩ := isolated.counted.slot_of_active member active
      rw [gone] at held
      cases held
  | walkReleased t b connected gone =>
      obtain ⟨slot, held⟩ := isolated.counted.slot_of_connected connected
      rw [gone] at held
      cases held

structure RefcountProtocol (w : World σ) : Prop where
  refcount : ∀ b, (w.bodies b).slotRefcount =
    (if (w.bodies b).connected then 1 else 0) +
      w.invocations.countP (fun inv => inv.activeSlot = some b)
  slot : ∀ b, (w.bodies b).slot.isSome = true ↔ 0 < (w.bodies b).slotRefcount
  releasedOnce : ∀ b, (w.bodies b).releases ≤ 1
  assertions : w.fault ≠ some .incSlotRefcount ∧ w.fault ≠ some .decSlotRefcount
  -- the slot that a call iterator is about to dereference, or is running
  present : ∀ inv ∈ w.invocations, inv.phase = .ready ∨ inv.phase = .running →
    inv.iter.node ≠ none →
      ∃ b slot, w.bodyAt inv.localState inv.iter = some b ∧ (w.bodies b).slot = some slot
  neverReleased : w.fault ≠ some .releasedSlot

theorem slot_refcount_protocol {combiner : σ.Combiner}
    {defaultCompare groupCompare : σ.Group → σ.Group → Bool} {owners : ObjectId → Nat}
    (reached : Runs.Reachable World.step CombinerSetAlone
      (World.construct combiner defaultCompare groupCompare owners) w) :
    w.RefcountProtocol := by
  have keeps : ∀ (s : World σ) (a : Action σ) (next : World σ),
      s.Isolated ∧ s.fault ≠ some .releasedSlot → CombinerSetAlone s a →
      s.step a = some next → next.Isolated ∧ next.fault ≠ some .releasedSlot := by
    rintro s a next ⟨isolated, _⟩ alone stepped
    obtain ⟨sound, effect⟩ := step_effect stepped
    refine ⟨isolated.step alone.unread stepped, fun raised => ?_⟩
    exact isolated.not_released (isolated.counted.cause sound effect raised)
  obtain ⟨isolated, neverReleased⟩ := reached.invariant keeps
    ⟨construct_isolated combiner defaultCompare groupCompare owners, fun raised => by cases raised⟩
  have counted := isolated.counted
  exact {
    refcount := counted.slotRefcount
    slot := fun b => (counted.balanced b).slot
    releasedOnce := fun b => (counted.balanced b).releases
    assertions := counted.sound
    present := fun inv member phase inside => by
      obtain ⟨b, here, active⟩ := isolated.committed member phase inside
      obtain ⟨slot, held⟩ := counted.slot_of_active member active
      exact ⟨b, slot, here, held⟩
    neverReleased := neverReleased }

/-- A slot is called, and disconnected while it runs. -/
theorem callFirstSlot_refcount_protocol :
    ∃ w : World natSignal,
      Runs.run World.step natStart (callFirstSlot ++ [.disconnect 0]) = some w ∧
        w.RefcountProtocol := by
  obtain ⟨w, ran⟩ : ∃ w : World natSignal,
      Runs.run World.step natStart (callFirstSlot ++ [.disconnect 0]) = some w := ⟨_, rfl⟩
  refine ⟨w, ran, slot_refcount_protocol ⟨_, CombinerSetAlone.of_forall ?_, ran⟩⟩
  simp [callFirstSlot, connectBack]

end World

end Signals2
