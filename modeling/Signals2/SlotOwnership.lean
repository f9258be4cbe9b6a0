/-
Slot objects and the mutex.  What `connection_body_base` releases goes to the garbage
of the lock, and from there to the references that an operation lets go of after it
has unlocked: while a client holds the mutex no reference to a slot object that is not
in a connection body is lost.
-/

import Signals2.BodyLifetimes
import Signals2.TrackedObjects

namespace Signals2

open LinkedLists

variable {σ : SignalTemplate}

/-! ### The store -/

namespace BodyStore

/-- A slot that its body loses is in the garbage. -/
structure SlotsKept (store store' : BodyStore σ) : Prop where
  slots : ∀ b, (store.bodies b).slot.isSome = true →
    (store'.bodies b).slot.isSome = true ∨ b ∈ store'.garbage
  garbage : ∀ b ∈ store.garbage, b ∈ store'.garbage

variable {store store' store'' : BodyStore σ}

theorem SlotsKept.refl (store : BodyStore σ) : store.SlotsKept store where
  slots _ := .inl
  garbage _ := id

theorem SlotsKept.trans (first : store.SlotsKept store') (second : store'.SlotsKept store'') :
    store.SlotsKept store'' where
  slots b held := by
    rcases first.slots b held with still | released
    · exact second.slots b still
    · exact .inr (second.garbage b released)
  garbage b member := second.garbage b (first.garbage b member)

theorem setBody_slotsKept {b : BodyId} {body : ConnectionBody σ}
    (held : (store.bodies b).slot.isSome = true → body.slot.isSome = true) :
    store.SlotsKept (store.setBody b body) where
  slots other present := by
    left
    by_cases same : other = b
    · subst same
      rw [setBody_self]
      exact held present
    · rw [setBody_other body same]
      exact present
  garbage _ := id

theorem releaseSlot_slotsKept (b : BodyId) : store.SlotsKept (store.releaseSlot b) where
  slots other present := by
    unfold releaseSlot
    by_cases same : other = b
    · right
      simp [same]
    · left
      rw [setBody_other _ same]
      exact present
  garbage other member := List.mem_append_left _ member

theorem incSlotRefcount_slotsKept (b : BodyId) : store.SlotsKept (store.incSlotRefcount b) := by
  unfold incSlotRefcount
  split
  · exact { SlotsKept.refl store with }
  · exact setBody_slotsKept id

theorem decSlotRefcount_slotsKept (b : BodyId) : store.SlotsKept (store.decSlotRefcount b) := by
  unfold decSlotRefcount
  split
  · exact { SlotsKept.refl store with }
  · dsimp only
    split
    · apply SlotsKept.trans _ (releaseSlot_slotsKept b)
      exact setBody_slotsKept id
    · exact setBody_slotsKept id

theorem nolockDisconnect_slotsKept (b : BodyId) : store.SlotsKept (store.nolockDisconnect b) := by
  unfold nolockDisconnect
  split
  · apply SlotsKept.trans _ (decSlotRefcount_slotsKept b)
    exact setBody_slotsKept id
  · exact .refl store

theorem setActiveSlot_slotsKept (old new : Option BodyId) :
    store.SlotsKept (store.setActiveSlot old new) := by
  unfold setActiveSlot
  cases old with
  | none =>
      cases new with
      | none => exact .refl store
      | some added => exact incSlotRefcount_slotsKept added
  | some held =>
      cases new with
      | none => exact decSlotRefcount_slotsKept held
      | some added => exact (decSlotRefcount_slotsKept held).trans (incSlotRefcount_slotsKept added)

theorem newConnectionBody_slotsKept (slot : Slot σ) (groupKey : GroupKey σ.Group) :
    store.SlotsKept (store.newConnectionBody slot groupKey) := by
  have added : store.SlotsKept (store.setBody store.nextBody (.construct slot groupKey)) :=
    setBody_slotsKept fun _ => rfl
  exact { added with }

end BodyStore

/-! ### The steps -/

namespace World

variable {w u w' : World σ} {a : Action σ}

/-- A reference to the slot object that is let go of when its operation has unlocked. -/
def Pending (w : World σ) (b : BodyId) : Prop := b ∈ w.garbage ∨ Leftover.slot b ∈ w.trash

theorem slotOwned_iff {b : BodyId} : w.slotOwned b = true ↔
    (w.bodyAlive b = true ∧ (w.bodies b).slot.isSome = true) ∨ w.Pending b := by
  simp [slotOwned, Pending, or_assoc]

structure SlotsKept (w w' : World σ) : Prop where
  owners : w'.owners = w.owners
  slots : ∀ b, (w.bodies b).slot.isSome = true →
    (w'.bodies b).slot.isSome = true ∨ w'.Pending b
  pending : ∀ b, w.Pending b → w'.Pending b
  promoted : ∀ b, Leftover.body b ∈ w.trash → Leftover.body b ∈ w'.trash

theorem SlotsKept.of_store {store : BodyStore σ} (kept : w.toBodyStore.SlotsKept store) :
    SlotsKept w { w with toBodyStore := store } where
  owners := rfl
  slots b held := (kept.slots b held).imp id .inl
  pending b := Or.imp (kept.garbage b) id
  promoted _ := id

/-- Lists, invocations, traversals and the mutex do not matter. -/
theorem SlotsKept.congr {v : World σ} (kept : SlotsKept w u)
    (store : v.toBodyStore = u.toBodyStore) (trash : v.trash = u.trash)
    (owners : v.owners = u.owners) : SlotsKept w v where
  owners := owners.trans kept.owners
  slots b held := by
    rw [Pending, store, trash]
    exact kept.slots b held
  pending b before := by
    rw [Pending, store, trash]
    exact kept.pending b before
  promoted b before := by
    rw [trash]
    exact kept.promoted b before

theorem SlotsKept.refl (w : World σ) : SlotsKept w w := .of_store (.refl _)

theorem SlotsKept.aside {v : World σ} (store : v.toBodyStore = w.toBodyStore)
    (trash : v.trash = w.trash) (owners : v.owners = w.owners) : SlotsKept w v :=
  (SlotsKept.refl w).congr store trash owners

theorem SlotsKept.failed {f : Fault} : SlotsKept w (w.fail f) where
  owners := rfl
  slots _ := .inl
  pending _ := id
  promoted _ := id

theorem SlotsKept.trans (first : SlotsKept w u) (second : SlotsKept u w') : SlotsKept w w' where
  owners := second.owners.trans first.owners
  slots b held := by
    rcases first.slots b held with still | released
    · exact second.slots b still
    · exact .inr (second.pending b released)
  pending b before := second.pending b (first.pending b before)
  promoted b before := second.promoted b (first.promoted b before)

theorem SlotsKept.unlock (kept : SlotsKept w u) : SlotsKept w u.unlock := by
  have pending : ∀ b, u.Pending b → u.unlock.Pending b := by
    intro b before
    right
    rcases before with released | trashed
    · exact List.mem_append_right _ (List.mem_map_of_mem released)
    · exact List.mem_append_left _ trashed
  exact {
    owners := kept.owners
    slots := fun b held => (kept.slots b held).imp id (pending b)
    pending := fun b before => pending b (kept.pending b before)
    promoted := fun b before => List.mem_append_left _ (kept.promoted b before) }

theorem SlotsKept.keepBody (kept : SlotsKept w u) (b : BodyId) : SlotsKept w (u.keepBody b) where
  owners := kept.owners
  slots c held := (kept.slots c held).imp id (Or.imp id (List.mem_append_left _))
  pending c before := (kept.pending c before).imp id (List.mem_append_left _)
  promoted c before := List.mem_append_left _ (kept.promoted c before)

theorem nolockDisconnect_slotsKept (b : BodyId) : SlotsKept w (w.nolockDisconnect b) :=
  .of_store (BodyStore.nolockDisconnect_slotsKept b)

theorem setActiveSlot_slotsKept (old new : Option BodyId) :
    SlotsKept w (w.setActiveSlot old new) :=
  .of_store (BodyStore.setActiveSlot_slotsKept old new)

theorem checkExpired_slotsKept (grabTracked : Bool) (b : BodyId) :
    SlotsKept w (w.checkExpired grabTracked b) := by
  unfold checkExpired disconnectExpiredSlot
  split
  · split
    · exact .refl w
    · split
      · exact nolockDisconnect_slotsKept b
      · exact .refl w
  · exact .refl w

theorem finishGrab_slotsKept (client : GrabClient) (b : BodyId) :
    SlotsKept w (w.finishGrab client b) := by
  unfold finishGrab
  cases client with
  | connected =>
      apply SlotsKept.unlock
      exact ((SlotsKept.refl w).keepBody b).congr rfl rfl rfl
  | traversal t =>
      dsimp only
      split
      · exact (SlotsKept.refl w).unlock
      · apply SlotsKept.unlock
        exact .aside rfl rfl rfl
  | iterator i =>
      dsimp only
      split
      · exact (SlotsKept.refl w).unlock
      · rename_i inv found
        split
        · have activated : SlotsKept w (w.setActiveSlot inv.activeSlot (some b)) :=
            setActiveSlot_slotsKept _ _
          apply SlotsKept.unlock
          exact activated.congr rfl rfl rfl
        · apply SlotsKept.unlock
          exact .aside rfl rfl rfl

theorem insertLocked_slotsKept (client : GrabClient) (locked : Option ObjectId) :
    SlotsKept w (w.insertLocked client locked) := by
  unfold insertLocked
  split
  · split
    · exact .refl w
    · exact .aside rfl rfl rfl
  · exact .refl w

theorem grabStep_slotsKept (client : GrabClient) (b : BodyId) (todo : List VoidWeakPtr)
    (lockedObject : Option (Option ObjectId)) :
    SlotsKept w (w.grabStep client b todo lockedObject) := by
  unfold grabStep
  split
  · exact finishGrab_slotsKept client b
  · split
    · split
      · exact (nolockDisconnect_slotsKept b).trans (finishGrab_slotsKept client b)
      · exact .aside rfl rfl rfl
    · exact (insertLocked_slotsKept _ _).congr rfl rfl rfl

theorem containsStep_slotsKept (t : TraversalId) (b : BodyId) (pimpl : ObjectId)
    (locked : Option ObjectId) : SlotsKept w (w.containsStep t b pimpl locked) := by
  have tested : SlotsKept w (if locked = some pimpl then w.nolockDisconnect b else w) := by
    split
    · exact nolockDisconnect_slotsKept b
    · exact .refl w
  unfold containsStep
  dsimp only
  split
  · exact tested.unlock
  · apply SlotsKept.unlock
    exact tested.congr rfl rfl rfl

theorem finishCleanup_slotsKept (impl : SignalImpl) (it : Iterator) (after : AfterCleanup σ) :
    SlotsKept w (w.finishCleanup impl it after) := by
  unfold finishCleanup
  cases after with
  | connect arguments =>
      have inserted : SlotsKept w { w with
          toBodyStore := w.toBodyStore.newConnectionBody arguments.slot (groupKeyOf arguments) } :=
        .of_store (BodyStore.newConnectionBody_slotsKept _ _)
      apply SlotsKept.unlock
      exact inserted.congr rfl rfl rfl
  | invoke =>
      apply SlotsKept.unlock
      exact .aside rfl rfl rfl
  | forceCleanup i =>
      dsimp only
      split
      · apply SlotsKept.unlock
        exact .aside rfl rfl rfl
      · apply SlotsKept.unlock
        exact .aside rfl rfl rfl

theorem cleanupStep_slotsKept (it : Iterator) (i count : Nat) (grabTracked : Bool)
    (after : AfterCleanup σ) : SlotsKept w (w.cleanupStep it i count grabTracked after) := by
  unfold cleanupStep
  split
  · exact .failed
  · dsimp only
    split
    · split
      · exact .failed
      · have checked := checkExpired_slotsKept (w := w) grabTracked ‹BodyId›
        split
        · split
          · exact checked.trans .failed
          · exact checked.congr rfl rfl rfl
        · exact checked.congr rfl rfl rfl
    · exact finishCleanup_slotsKept _ _ _

theorem sectionStep_slotsKept (stepped : w.sectionStep = some w') : SlotsKept w w' := by
  unfold sectionStep at stepped
  split at stepped
  · cases stepped
  · cases stepped
    exact grabStep_slotsKept _ _ _ _
  · cases stepped
    exact containsStep_slotsKept _ _ _ _
  · cases stepped
    exact cleanupStep_slotsKept _ _ _ _ _

theorem slotThrows_slotsKept {i : InvocationId} {expiredSlot : Bool}
    (stepped : w.slotThrows i expiredSlot = some w') : SlotsKept w w' := by
  unfold slotThrows at stepped
  split at stepped
  · cases stepped
  · rename_i inv found
    split at stepped
    · have thrown : SlotsKept w (w.setInvocation i { inv with phase := .ready }) :=
        .aside rfl rfl rfl
      dsimp only at stepped
      split at stepped
      · split at stepped
        · cases stepped
        · split at stepped <;> cases stepped
          · exact .failed
          · exact (thrown.trans (nolockDisconnect_slotsKept _)).unlock
      · cases stepped
        exact thrown
    · cases stepped

theorem reachEnd_slotsKept {i : InvocationId} (stepped : w.reachEnd i = some w') :
    SlotsKept w w' := by
  unfold reachEnd at stepped
  split at stepped
  · cases stepped
  · rename_i inv found
    have idle : SlotsKept w (w.setActiveSlot inv.activeSlot none) := setActiveSlot_slotsKept _ _
    split at stepped
    · split at stepped
      · cases stepped
        exact .aside rfl rfl rfl
      · split at stepped
        · cases stepped
        · split at stepped <;> cases stepped
          · exact .failed
          · apply SlotsKept.unlock
            exact idle.congr rfl rfl rfl
    · cases stepped

theorem destroyCache_slotsKept {i : InvocationId} (stepped : w.destroyCache i = some w') :
    SlotsKept w w' := by
  unfold destroyCache at stepped
  split at stepped
  · cases stepped
  · split at stepped
    · split at stepped
      · cases stepped
        exact .aside rfl rfl rfl
      · rename_i b active
        have idle : SlotsKept w (w.setActiveSlot (some b) none) := setActiveSlot_slotsKept _ _
        split at stepped <;> cases stepped
        apply SlotsKept.unlock
        exact idle.congr rfl rfl rfl
    · cases stepped

theorem janitor_slotsKept {i : InvocationId} (stepped : w.janitor i = some w') :
    SlotsKept w w' := by
  unfold janitor at stepped
  split at stepped
  · cases stepped
  · split at stepped
    · dsimp only at stepped
      split at stepped
      · split at stepped
        · cases stepped
        · split at stepped
          · cases stepped
            exact .failed
          · split at stepped
            · cases stepped
              exact .aside rfl rfl rfl
            · split at stepped <;> cases stepped
              split <;> exact .aside rfl rfl rfl
      · cases stepped
        exact .aside rfl rfl rfl
    · cases stepped

theorem advance_slotsKept {t : TraversalId} (stepped : w.advance t = some w') :
    SlotsKept w w' := by
  unfold advance at stepped
  split at stepped
  · cases stepped
  · rename_i tr found
    have walked : ∀ tr', SlotsKept w (w.setTraversal t tr') := fun _ => .aside rfl rfl rfl
    have ended : ∀ tr' b, SlotsKept w ((w.setTraversal t tr').nolockDisconnect b).unlock :=
      fun tr' b => ((walked tr').trans (nolockDisconnect_slotsKept b)).unlock
    split at stepped
    · cases stepped
    · split at stepped
      · cases stepped
        exact walked _
      · split at stepped
        · cases stepped
        · split at stepped
          · cases stepped
            exact .failed
          · dsimp only at stepped
            split at stepped <;> cases stepped
            · exact ended _ _
            · exact ended _ _
            · unfold doDisconnect
              dsimp only
              split
              · exact walked _
              · split
                · exact .failed
                · split
                  · split
                    · exact ended _ _
                    · exact walked _
                  · split
                    · exact ended _ _
                    · exact walked _
                  · exact .aside rfl rfl rfl
                  · exact walked _
            · exact .aside rfl rfl rfl
            · exact .aside rfl rfl rfl

theorem getBlocker_slotsKept (b : BodyId) : SlotsKept w (w.getBlocker b).1 := by
  have fresh : SlotsKept w
      (w.setBody b { w.bodies b with weakBlocker := some w.nextBlocker }) :=
    .of_store (BodyStore.setBody_slotsKept id)
  unfold getBlocker
  split
  · split
    · exact .refl w
    · exact fresh.congr rfl rfl rfl
  · exact fresh.congr rfl rfl rfl

theorem block_slotsKept {k : BlockId} (stepped : w.block k = some w') : SlotsKept w w' := by
  unfold World.block at stepped
  split at stepped
  · cases stepped
  · split at stepped
    · cases stepped
      exact .refl w
    · split at stepped
      · cases stepped
        exact .aside rfl rfl rfl
      · split at stepped
        · cases stepped
        · cases stepped
          exact (getBlocker_slotsKept _).congr rfl rfl rfl

/-- The client that takes the step has the mutex locked meanwhile. -/
def locksMutex (w : World σ) : Action σ → Bool
  | .section => true
  | .connect _ | .setCombiner _ | .invoke | .traverse _ => w.critical.isNone
  | .disconnect _ | .connected _ | .block _ => w.critical.isNone
  | .lockNext _ | .reachEnd _ | .slotThrows _ _ | .janitor _ | .destroyCache _ =>
      w.critical.isNone
  | .advance t =>
      w.critical.isNone &&
        match w.traversals[t]? with
        | none => false
        | some tr => decide (tr.it ≠ tr.endIt) && !tr.answered
  | _ => false

/-- No reference to a slot is lost under the lock unless a body goes with it. -/
theorem locked_slotsKept (locks : w.locksMutex a = true) (stepped : w.step a = some w') :
    SlotsKept w w' := by
  have sound := (step_effect stepped).1
  simp only [step, sound, Option.isSome_none, Bool.false_eq_true, if_false] at stepped
  cases a with
  | «section» => exact sectionStep_slotsKept stepped
  | connect arguments =>
      obtain ⟨impl, _, rfl⟩ := Option.map_eq_some_iff.mp stepped
      unfold nolockForceUniqueConnectionList
      split <;> exact .aside rfl rfl rfl
  | setCombiner combiner =>
      obtain ⟨impl, _, rfl⟩ := Option.map_eq_some_iff.mp stepped
      split <;> exact .aside rfl rfl rfl
  | invoke =>
      obtain ⟨impl, _, rfl⟩ := Option.map_eq_some_iff.mp stepped
      split <;> exact .aside rfl rfl rfl
  | traverse kind =>
      obtain ⟨impl, _, rfl⟩ := Option.map_eq_some_iff.mp stepped
      exact .aside rfl rfl rfl
  | disconnect b =>
      simp only [World.disconnect] at stepped
      split at stepped
      · cases stepped
      · split at stepped <;> cases stepped
        · exact ((nolockDisconnect_slotsKept b).keepBody b).unlock
        · exact .refl w
  | connected b =>
      simp only [World.connected] at stepped
      split at stepped
      · cases stepped
      · split at stepped <;> cases stepped <;> exact .aside rfl rfl rfl
  | lockNext i =>
      simp only [World.lockNext] at stepped
      split at stepped
      · cases stepped
      · split at stepped
        · split at stepped <;> cases stepped
          · exact .failed
          · exact .aside rfl rfl rfl
        · cases stepped
  | reachEnd i => exact reachEnd_slotsKept stepped
  | slotThrows i expiredSlot => exact slotThrows_slotsKept stepped
  | janitor i => exact janitor_slotsKept stepped
  | destroyCache i => exact destroyCache_slotsKept stepped
  | advance t => exact advance_slotsKept stepped
  | block k => exact block_slotsKept stepped
  | _ => cases locks

end World

end Signals2
