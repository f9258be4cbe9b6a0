/-
How long connection bodies live, and what the steps of a signal leave to the objects
outside: a body that nothing keeps is gone for good, and only operations of blocks
touch blocks and blockers.
-/

import Signals2.ConnectionObjects
import Signals2.CurrentList

namespace Signals2

open LinkedLists

variable {σ : SignalTemplate}

/-! ### Blockers of the bodies -/

namespace BodyStore

variable {store : BodyStore σ}

theorem decSlotRefcount_weakBlocker (b c : BodyId) :
    ((store.decSlotRefcount b).bodies c).weakBlocker = (store.bodies c).weakBlocker := by
  unfold decSlotRefcount
  split
  · rfl
  · by_cases same : c = b
    · subst same
      dsimp only
      split <;> simp [releaseSlot, setBody]
    · dsimp only
      split <;> simp [releaseSlot, setBody, same]

theorem incSlotRefcount_weakBlocker (b c : BodyId) :
    ((store.incSlotRefcount b).bodies c).weakBlocker = (store.bodies c).weakBlocker := by
  unfold incSlotRefcount
  split
  · rfl
  · by_cases same : c = b
    · subst same
      simp [setBody]
    · simp [setBody, same]

theorem nolockDisconnect_weakBlocker (b c : BodyId) :
    ((store.nolockDisconnect b).bodies c).weakBlocker = (store.bodies c).weakBlocker := by
  unfold nolockDisconnect
  split
  · rw [decSlotRefcount_weakBlocker]
    by_cases same : c = b
    · subst same
      simp [setBody]
    · simp [setBody, same]
  · rfl

theorem setActiveSlot_weakBlocker (old new : Option BodyId) (c : BodyId) :
    ((store.setActiveSlot old new).bodies c).weakBlocker = (store.bodies c).weakBlocker := by
  unfold setActiveSlot
  cases old <;> cases new <;>
    simp [incSlotRefcount_weakBlocker, decSlotRefcount_weakBlocker]

end BodyStore

namespace World

variable {w w' u : World σ} {a : Action σ}

/-- What a step that is no operation of a block does to what the objects outside see. -/
structure BlocksKept (w w' : World σ) : Prop where
  blocks : w'.blocks = w.blocks
  nextBlocker : w'.nextBlocker = w.nextBlocker
  weakBlocker : ∀ b, (w'.bodies b).weakBlocker = (w.bodies b).weakBlocker ∨
    b = w.nextBody ∧ (w'.bodies b).weakBlocker = none
  trash : ∀ b, Leftover.body b ∈ w'.trash → Leftover.body b ∈ w.trash ∨ w.bodyAlive b = true

theorem BlocksKept.refl (w : World σ) :
    BlocksKept w w := ⟨rfl, rfl, fun _ => .inl rfl, fun _ => .inl⟩

/-- Nothing but the body store changes, and there no blocker, besides what has no part in this. -/
theorem BlocksKept.of_store {store : BodyStore σ}
    (same : ∀ b, (store.bodies b).weakBlocker = (w.bodies b).weakBlocker)
    (bodies : u.bodies = store.bodies) (blocks : u.blocks = w.blocks)
    (nextBlocker : u.nextBlocker = w.nextBlocker) (trash : u.trash = w.trash) : BlocksKept w u where
  blocks := blocks
  nextBlocker := nextBlocker
  weakBlocker b := .inl (by rw [bodies, same])
  trash b member := .inl (trash ▸ member)

theorem BlocksKept.unlock (aside : BlocksKept w u) : BlocksKept w u.unlock where
  blocks := aside.blocks
  nextBlocker := aside.nextBlocker
  weakBlocker := aside.weakBlocker
  trash b member := by
    rcases List.mem_append.mp member with old | new
    · exact aside.trash b old
    · obtain ⟨_, _, impossible⟩ := List.mem_map.mp new
      cases impossible

/-- Only a body that is alive is kept for longer. -/
theorem BlocksKept.keepBody (aside : BlocksKept w u) {b : BodyId} (alive : w.bodyAlive b = true) :
    BlocksKept w (u.keepBody b) where
  blocks := aside.blocks
  nextBlocker := aside.nextBlocker
  weakBlocker := aside.weakBlocker
  trash c member := by
    rcases List.mem_append.mp member with old | new
    · exact aside.trash c old
    · cases List.mem_singleton.mp new
      exact .inr alive

theorem nolockDisconnect_blocksKept (b : BodyId) : BlocksKept w (w.nolockDisconnect b) :=
  .of_store (BodyStore.nolockDisconnect_weakBlocker b) rfl rfl rfl rfl

theorem setActiveSlot_blocksKept (old new : Option BodyId) :
    BlocksKept w (w.setActiveSlot old new) :=
  .of_store (BodyStore.setActiveSlot_weakBlocker old new) rfl rfl rfl rfl

/-- The frame does not see lists, invocations, traversals or the mutex. -/
theorem BlocksKept.congr {v : World σ} (aside : BlocksKept w u) (bodies : v.bodies = u.bodies)
    (blocks : v.blocks = u.blocks) (nextBlocker : v.nextBlocker = u.nextBlocker)
    (trash : v.trash = u.trash) : BlocksKept w v where
  blocks := blocks.trans aside.blocks
  nextBlocker := nextBlocker.trans aside.nextBlocker
  weakBlocker b := by
    rw [bodies]
    exact aside.weakBlocker b
  trash b member := aside.trash b (trash ▸ member)

theorem BlocksKept.trans (first : BlocksKept w u) (nextBody : u.nextBody = w.nextBody)
    (second : BlocksKept u w')
    (kept : ∀ b, Leftover.body b ∈ w'.trash → Leftover.body b ∈ u.trash ∨ w.bodyAlive b = true) :
    BlocksKept w w' where
  blocks := second.blocks.trans first.blocks
  nextBlocker := second.nextBlocker.trans first.nextBlocker
  weakBlocker b := by
    rcases second.weakBlocker b with same | ⟨new, none⟩
    · rw [same]
      exact first.weakBlocker b
    · exact .inr ⟨new.trans nextBody, none⟩
  trash b member := by
    rcases kept b member with old | alive
    · exact first.trash b old
    · exact .inr alive

private theorem same_blocksKept (bodies : u.bodies = w.bodies) (blocks : u.blocks = w.blocks)
    (nextBlocker : u.nextBlocker = w.nextBlocker) (trash : u.trash = w.trash) : BlocksKept w u :=
  (BlocksKept.refl w).congr bodies blocks nextBlocker trash

/-! ### The critical sections -/

theorem checkExpired_blocksKept (grabTracked : Bool) (b : BodyId) :
    BlocksKept w (w.checkExpired grabTracked b) := by
  unfold checkExpired disconnectExpiredSlot
  split
  · split
    · exact .refl w
    · split
      · exact nolockDisconnect_blocksKept b
      · exact .refl w
  · exact .refl w

theorem finishGrab_blocksKept {client : GrabClient} {b : BodyId} (held : w.sectionBody = some b) :
    BlocksKept w (w.finishGrab client b) := by
  cases client with
  | connected =>
      have alive : w.bodyAlive b = true := by simp [bodyAlive, held]
      apply BlocksKept.unlock
      exact ((BlocksKept.refl w).keepBody alive).congr rfl rfl rfl rfl
  | traversal t =>
      unfold finishGrab
      dsimp only
      split
      · exact (BlocksKept.refl w).unlock
      · apply BlocksKept.unlock
        exact same_blocksKept rfl rfl rfl rfl
  | iterator i =>
      unfold finishGrab
      dsimp only
      split
      · exact (BlocksKept.refl w).unlock
      · split
        · apply BlocksKept.unlock
          exact (setActiveSlot_blocksKept _ _).congr rfl rfl rfl rfl
        · apply BlocksKept.unlock
          exact same_blocksKept rfl rfl rfl rfl

theorem insertLocked_blocksKept (client : GrabClient) (locked : Option ObjectId) :
    BlocksKept w (w.insertLocked client locked) := by
  unfold insertLocked
  split
  · split
    · exact .refl w
    · exact same_blocksKept rfl rfl rfl rfl
  · exact .refl w

theorem grabStep_blocksKept {client : GrabClient} {b : BodyId} {todo : List VoidWeakPtr}
    {lockedObject : Option (Option ObjectId)} (held : w.sectionBody = some b) :
    BlocksKept w (w.grabStep client b todo lockedObject) := by
  unfold grabStep
  split
  · exact finishGrab_blocksKept held
  · split
    · split
      · have disconnected : w.toBodyStore.Ages (w.toBodyStore.nolockDisconnect b) :=
          BodyStore.nolockDisconnect_ages b
        have finished : BlocksKept (w.nolockDisconnect b)
            ((w.nolockDisconnect b).finishGrab client b) := finishGrab_blocksKept held
        exact (nolockDisconnect_blocksKept b).trans disconnected.nextBody finished finished.trash
      · exact same_blocksKept rfl rfl rfl rfl
    · exact (insertLocked_blocksKept _ _).congr rfl rfl rfl rfl

theorem containsStep_blocksKept (t : TraversalId) (b : BodyId) (pimpl : ObjectId)
    (locked : Option ObjectId) : BlocksKept w (w.containsStep t b pimpl locked) := by
  have tested : BlocksKept w (if locked = some pimpl then w.nolockDisconnect b else w) := by
    split
    · exact nolockDisconnect_blocksKept b
    · exact .refl w
  unfold containsStep
  dsimp only
  split
  · exact tested.unlock
  · apply BlocksKept.unlock
    exact tested.congr rfl rfl rfl rfl

theorem insertConnection_blocksKept (impl : SignalImpl) (arguments : ConnectArguments σ) :
    BlocksKept w (w.insertConnection impl arguments) where
  blocks := rfl
  nextBlocker := rfl
  weakBlocker b := by
    by_cases new : b = w.nextBody
    · subst new
      right
      constructor
      · rfl
      · change ((w.toBodyStore.newConnectionBody _ _).bodies w.nextBody).weakBlocker = none
        rw [BodyStore.newConnectionBody_new]
        rfl
    · left
      change ((w.toBodyStore.newConnectionBody _ _).bodies b).weakBlocker = _
      rw [BodyStore.newConnectionBody_old _ _ new]
  trash _ := .inl

theorem finishCleanup_blocksKept (impl : SignalImpl) (it : Iterator) (after : AfterCleanup σ) :
    BlocksKept w (w.finishCleanup impl it after) := by
  have saved : BlocksKept w (w.setHeap (w.heap.setGarbageCollectorIt impl it)) :=
    same_blocksKept rfl rfl rfl rfl
  unfold finishCleanup
  cases after with
  | connect arguments =>
      apply BlocksKept.unlock
      exact saved.trans rfl (insertConnection_blocksKept _ _) fun _ => .inl
  | invoke =>
      apply BlocksKept.unlock
      exact saved.congr rfl rfl rfl rfl
  | forceCleanup i =>
      dsimp only
      split
      · exact saved.unlock
      · apply BlocksKept.unlock
        exact saved.congr rfl rfl rfl rfl

theorem cleanupStep_blocksKept (it : Iterator) (i count : Nat) (grabTracked : Bool)
    (after : AfterCleanup σ) : BlocksKept w (w.cleanupStep it i count grabTracked after) := by
  unfold cleanupStep
  split
  · exact same_blocksKept rfl rfl rfl rfl
  · dsimp only
    split
    · split
      · exact same_blocksKept rfl rfl rfl rfl
      · have checked := checkExpired_blocksKept (w := w) grabTracked ‹BodyId›
        split
        · split
          · exact checked.congr rfl rfl rfl rfl
          · exact checked.congr rfl rfl rfl rfl
        · exact checked.congr rfl rfl rfl rfl
    · exact finishCleanup_blocksKept _ _ _

theorem sectionStep_blocksKept (stepped : w.sectionStep = some w') : BlocksKept w w' := by
  unfold sectionStep at stepped
  split at stepped
  · cases stepped
  · rename_i client b todo locked critical
    cases stepped
    exact grabStep_blocksKept (by simp [sectionBody, critical])
  · cases stepped
    exact containsStep_blocksKept _ _ _ _
  · cases stepped
    exact cleanupStep_blocksKept _ _ _ _ _

/-! ### Single steps -/

theorem connect_blocksKept {arguments : ConnectArguments σ} (stepped : w.connect arguments = some w') :
    BlocksKept w w' := by
  obtain ⟨impl, _, rfl⟩ := Option.map_eq_some_iff.mp stepped
  unfold nolockForceUniqueConnectionList
  split <;> exact same_blocksKept rfl rfl rfl rfl

theorem setCombiner_blocksKept {combiner : σ.Combiner} (stepped : w.setCombiner combiner = some w') :
    BlocksKept w w' := by
  obtain ⟨impl, _, rfl⟩ := Option.map_eq_some_iff.mp stepped
  split <;> exact same_blocksKept rfl rfl rfl rfl

theorem invoke_blocksKept (stepped : w.invoke = some w') : BlocksKept w w' := by
  obtain ⟨impl, _, rfl⟩ := Option.map_eq_some_iff.mp stepped
  split <;> exact same_blocksKept rfl rfl rfl rfl

theorem disconnect_blocksKept {b : BodyId} (stepped : w.disconnect b = some w') :
    BlocksKept w w' := by
  unfold World.disconnect at stepped
  split at stepped
  · cases stepped
  · split at stepped <;> rename_i kept <;> cases stepped
    · exact ((nolockDisconnect_blocksKept b).keepBody kept).unlock
    · exact .refl w

theorem promote_blocksKept {b : BodyId} (stepped : w.promote b = some w') :
    BlocksKept w w' := by
  unfold World.promote at stepped
  split at stepped <;> cases stepped
  exact (BlocksKept.refl w).keepBody ‹_›

theorem connected_blocksKept {b : BodyId} (stepped : w.connected b = some w') :
    BlocksKept w w' := by
  unfold World.connected at stepped
  split at stepped
  · cases stepped
  · split at stepped <;> cases stepped <;> exact same_blocksKept rfl rfl rfl rfl

theorem clearTracked_blocksKept {i : InvocationId} (stepped : w.clearTracked i = some w') :
    BlocksKept w w' := by
  unfold clearTracked at stepped
  split at stepped
  · cases stepped
  · split at stepped
    · cases stepped
    · split at stepped <;> cases stepped
      exact same_blocksKept rfl rfl rfl rfl

theorem lockNext_blocksKept {i : InvocationId} (stepped : w.lockNext i = some w') :
    BlocksKept w w' := by
  unfold lockNext at stepped
  split at stepped
  · cases stepped
  · split at stepped
    · split at stepped <;> cases stepped <;> exact same_blocksKept rfl rfl rfl rfl
    · cases stepped

theorem reachEnd_blocksKept {i : InvocationId} (stepped : w.reachEnd i = some w') :
    BlocksKept w w' := by
  unfold reachEnd at stepped
  split at stepped
  · cases stepped
  · split at stepped
    · split at stepped
      · cases stepped
        exact same_blocksKept rfl rfl rfl rfl
      · split at stepped
        · cases stepped
        · split at stepped <;> cases stepped
          · exact same_blocksKept rfl rfl rfl rfl
          · apply BlocksKept.unlock
            exact (setActiveSlot_blocksKept _ _).congr rfl rfl rfl rfl
    · cases stepped

theorem dereference_blocksKept {i : InvocationId} (stepped : w.dereference i = some w') :
    BlocksKept w w' := by
  unfold dereference at stepped
  split at stepped
  · cases stepped
  · split at stepped
    · split at stepped
      · cases stepped
        exact .refl w
      · split at stepped
        · cases stepped
          exact same_blocksKept rfl rfl rfl rfl
        · split at stepped
          · cases stepped
            exact same_blocksKept rfl rfl rfl rfl
          · dsimp only at stepped
            split at stepped
            · cases stepped
              exact same_blocksKept rfl rfl rfl rfl
            · split at stepped <;> cases stepped <;> exact same_blocksKept rfl rfl rfl rfl
    · cases stepped

theorem slotReturns_blocksKept {i : InvocationId} {result : σ.Result}
    (stepped : w.slotReturns i result = some w') : BlocksKept w w' := by
  unfold slotReturns at stepped
  split at stepped
  · cases stepped
  · split at stepped <;> cases stepped
    exact same_blocksKept rfl rfl rfl rfl

theorem slotThrows_blocksKept {i : InvocationId} {expiredSlot : Bool}
    (stepped : w.slotThrows i expiredSlot = some w') : BlocksKept w w' := by
  unfold slotThrows at stepped
  split at stepped
  · cases stepped
  · split at stepped
    · dsimp only at stepped
      split at stepped
      · split at stepped
        · cases stepped
        · split at stepped <;> cases stepped
          · exact same_blocksKept rfl rfl rfl rfl
          · apply BlocksKept.unlock
            have thrown : ∀ inv, BlocksKept w (w.setInvocation i inv) :=
              fun _ => same_blocksKept rfl rfl rfl rfl
            exact (thrown _).trans rfl (nolockDisconnect_blocksKept _) fun _ => .inl
      · cases stepped
        exact same_blocksKept rfl rfl rfl rfl
    · cases stepped

theorem increment_blocksKept {i : InvocationId} (stepped : w.increment i = some w') :
    BlocksKept w w' := by
  unfold increment at stepped
  split at stepped
  · cases stepped
  · split at stepped
    · split at stepped <;> cases stepped <;> exact same_blocksKept rfl rfl rfl rfl
    · cases stepped

theorem finish_blocksKept {i : InvocationId} (stepped : w.finish i = some w') :
    BlocksKept w w' := by
  unfold finish at stepped
  split at stepped
  · cases stepped
  · split at stepped <;> cases stepped
    exact same_blocksKept rfl rfl rfl rfl

theorem janitor_blocksKept {i : InvocationId} (stepped : w.janitor i = some w') :
    BlocksKept w w' := by
  unfold janitor at stepped
  split at stepped
  · cases stepped
  · split at stepped
    · dsimp only at stepped
      split at stepped
      · split at stepped
        · cases stepped
        · split at stepped
          · cases stepped
            exact same_blocksKept rfl rfl rfl rfl
          · split at stepped
            · cases stepped
              exact same_blocksKept rfl rfl rfl rfl
            · split at stepped
              · cases stepped
              · cases stepped
                split <;> exact same_blocksKept rfl rfl rfl rfl
      · cases stepped
        exact same_blocksKept rfl rfl rfl rfl
    · cases stepped

theorem destroyCache_blocksKept {i : InvocationId} (stepped : w.destroyCache i = some w') :
    BlocksKept w w' := by
  unfold destroyCache at stepped
  split at stepped
  · cases stepped
  · split at stepped
    · split at stepped
      · cases stepped
        exact same_blocksKept rfl rfl rfl rfl
      · split at stepped <;> cases stepped
        apply BlocksKept.unlock
        exact (setActiveSlot_blocksKept _ _).congr rfl rfl rfl rfl
    · cases stepped

theorem releaseState_blocksKept {i : InvocationId} (stepped : w.releaseState i = some w') :
    BlocksKept w w' := by
  unfold releaseState at stepped
  split at stepped
  · cases stepped
  · split at stepped <;> cases stepped
    exact same_blocksKept rfl rfl rfl rfl

theorem doDisconnect_blocksKept {t : TraversalId} {tr : Traversal σ} {b : BodyId} {next : Iterator}
    {argument : SlotArgument σ.Function} : BlocksKept w (w.doDisconnect t tr b next argument) := by
  have skipped : BlocksKept w (w.setTraversal t { tr with it := next }) :=
    same_blocksKept rfl rfl rfl rfl
  have ended : BlocksKept w ((w.setTraversal t { tr with it := next }).nolockDisconnect b).unlock := by
    apply BlocksKept.unlock
    exact skipped.trans rfl (nolockDisconnect_blocksKept b) fun _ => .inl
  unfold doDisconnect
  dsimp only
  split
  · exact skipped
  · split
    · exact same_blocksKept rfl rfl rfl rfl
    · split
      · split
        · exact ended
        · exact skipped
      · split
        · exact ended
        · exact skipped
      · exact same_blocksKept rfl rfl rfl rfl
      · exact skipped

theorem advance_blocksKept {t : TraversalId} (stepped : w.advance t = some w') :
    BlocksKept w w' := by
  unfold advance at stepped
  split at stepped
  · cases stepped
  · split at stepped
    · cases stepped
    · split at stepped
      · cases stepped
        exact same_blocksKept rfl rfl rfl rfl
      · split at stepped
        · cases stepped
        · split at stepped
          · cases stepped
            exact same_blocksKept rfl rfl rfl rfl
          · rename_i tr _ _ _ _ b _
            have walked : ∀ tr', BlocksKept w (w.setTraversal t tr') :=
              fun _ => same_blocksKept rfl rfl rfl rfl
            dsimp only at stepped
            split at stepped <;> cases stepped
            · apply BlocksKept.unlock
              exact (walked _).trans rfl (nolockDisconnect_blocksKept b) fun _ => .inl
            · apply BlocksKept.unlock
              exact (walked _).trans rfl (nolockDisconnect_blocksKept b) fun _ => .inl
            · exact doDisconnect_blocksKept
            · exact same_blocksKept rfl rfl rfl rfl
            · exact same_blocksKept rfl rfl rfl rfl

theorem release_blocksKept {n : Nat} (stepped : w.release n = some w') : BlocksKept w w' := by
  unfold World.release at stepped
  split at stepped <;> cases stepped
  exact {
    blocks := rfl
    nextBlocker := rfl
    weakBlocker := fun _ => .inl rfl
    trash := fun b member => .inl (List.mem_of_mem_eraseIdx member) }

theorem step_blocksKept (other : a.ofBlock = false) (stepped : w.step a = some w') :
    BlocksKept w w' := by
  unfold step at stepped
  split at stepped
  · cases stepped
  · cases a with
    | connect arguments => exact connect_blocksKept stepped
    | setCombiner combiner => exact setCombiner_blocksKept stepped
    | invoke => exact invoke_blocksKept stepped
    | traverse kind =>
        obtain ⟨impl, _, rfl⟩ := Option.map_eq_some_iff.mp stepped
        exact same_blocksKept rfl rfl rfl rfl
    | destroy =>
        obtain ⟨impl, _, rfl⟩ := Option.map_eq_some_iff.mp stepped
        exact same_blocksKept rfl rfl rfl rfl
    | «section» => exact sectionStep_blocksKept stepped
    | disconnect b => exact disconnect_blocksKept stepped
    | promote b => exact promote_blocksKept stepped
    | connected b => exact connected_blocksKept stepped
    | clearTracked i => exact clearTracked_blocksKept stepped
    | lockNext i => exact lockNext_blocksKept stepped
    | reachEnd i => exact reachEnd_blocksKept stepped
    | dereference i => exact dereference_blocksKept stepped
    | slotReturns i result => exact slotReturns_blocksKept stepped
    | slotThrows i expiredSlot => exact slotThrows_blocksKept stepped
    | increment i => exact increment_blocksKept stepped
    | finish i => exact finish_blocksKept stepped
    | janitor i => exact janitor_blocksKept stepped
    | destroyCache i => exact destroyCache_blocksKept stepped
    | releaseState i => exact releaseState_blocksKept stepped
    | advance t => exact advance_blocksKept stepped
    | release n => exact release_blocksKept stepped
    | acquire o =>
        simp only [acquire] at stepped
        split at stepped <;> cases stepped
        exact same_blocksKept rfl rfl rfl rfl
    | drop o =>
        simp only [drop] at stepped
        split at stepped <;> cases stepped
        exact same_blocksKept rfl rfl rfl rfl
    | constructBlock b => cases other
    | copyBlock k => cases other
    | block k => cases other
    | unblock k => cases other

/-! ### Bodies that something keeps -/

/-- Some list that is owned has a node for the body. -/
def Held (w : World σ) (b : BodyId) : Prop :=
  ∃ s, (w.shared = some s ∨ ∃ kind, some s ∈ w.readers kind) ∧ b ∈ (w.listOf s).list.values

theorem mem_liveStates {s : StateId} :
    s ∈ w.liveStates ↔ w.shared = some s ∨ ∃ kind, some s ∈ w.readers kind := by
  unfold liveStates
  rw [List.mem_append, List.mem_append, or_assoc]
  apply or_congr
  · rw [Option.mem_toList]
    exact Iff.rfl
  · constructor
    · intro reader
      rcases reader with invoking | walking
      · obtain ⟨inv, member, state⟩ := List.mem_filterMap.mp invoking
        exact ⟨.invocation, List.mem_map.mpr ⟨inv, member, state⟩⟩
      · obtain ⟨tr, member, state⟩ := List.mem_filterMap.mp walking
        exact ⟨.traversal, List.mem_map.mpr ⟨tr, member, state⟩⟩
    · rintro ⟨kind, member⟩
      cases kind with
      | invocation =>
          obtain ⟨inv, inside, state⟩ := List.mem_map.mp member
          exact .inl (List.mem_filterMap.mpr ⟨inv, inside, state⟩)
      | traversal =>
          obtain ⟨tr, inside, state⟩ := List.mem_map.mp member
          exact .inr (List.mem_filterMap.mpr ⟨tr, inside, state⟩)

theorem bodyAlive_iff {b : BodyId} : w.bodyAlive b = true ↔
    w.Held b ∨ w.sectionBody = some b ∨ Leftover.body b ∈ w.trash := by
  unfold bodyAlive
  rw [Bool.or_eq_true, Bool.or_eq_true, or_assoc]
  apply or_congr
  · rw [List.any_eq_true]
    constructor
    · rintro ⟨s, live, member⟩
      exact ⟨s, mem_liveStates.mp live, by simpa using member⟩
    · rintro ⟨s, live, member⟩
      exact ⟨s, mem_liveStates.mpr live, by simpa using member⟩
  · apply or_congr
    · simp
    · simp

theorem ListEffect.current_values (effect : ListEffect w a w') {impl' : SignalImpl}
    (present' : w'.heap.impl = some impl') {b : BodyId}
    (member : b ∈ (w'.heap.connectionBodies impl').list.values) :
    (∃ impl, w.heap.impl = some impl ∧ b ∈ (w.heap.connectionBodies impl).list.values) ∨
      b = w.nextBody := by
  cases effect with
  | keep current cleanup =>
      obtain ⟨impl, present, same, _⟩ := current impl' present'
      rw [same] at member
      exact .inl ⟨impl, present, member⟩
  | start impl it k count grabTracked after free present position heap critical =>
      rw [heap] at present' member
      exact .inl ⟨impl', present', member⟩
  | copy impl grabTracked after present heap critical =>
      rw [heap] at present' member
      cases present'
      simp only [Heap.connectionBodies, Heap.copyConnectionBodies, Function.update_self,
        LinkedList.values, GroupedList.copy_nodes] at member
      exact .inl ⟨impl, present, member⟩
  | erase impl it k k' count grabTracked after c list next before present here dead erased heap
      critical =>
      rw [heap] at present' member
      cases present.symm.trans present'
      simp only [Heap.connectionBodies, Heap.setConnectionBodies, Function.update_self,
        (GroupedList.erase_some erased).1] at member
      exact .inl ⟨impl', present', mem_erase member⟩
  | skip impl it k k' count grabTracked after c before present here heap critical =>
      rw [heap] at present' member
      exact .inl ⟨impl', present', member⟩
  | save impl it k count grabTracked after before present heap critical =>
      rw [heap] at present' member
      cases present'
      exact .inl ⟨impl, present, member⟩
  | connect impl it k count grabTracked arguments before present heap bodies connects critical =>
      rw [heap] at present' member
      cases present'
      simp only [Heap.connectionBodies, Heap.setConnectionBodies, Heap.setGarbageCollectorIt,
        Function.update_self] at member
      rcases mem_pushConnection member with new | old
      · exact .inr new
      · exact .inl ⟨impl, present, old⟩

theorem held_of_current {impl : SignalImpl} (present : w.heap.impl = some impl) {b : BodyId}
    (member : b ∈ (w.heap.connectionBodies impl).list.values) : w.Held b :=
  ⟨impl.sharedState, .inl (shared_of_present present), member⟩

theorem held_of_bodyAt {kind : ReaderKind} {localState : Option StateId}
    (reader : localState ∈ w.readers kind) {it : Iterator} {b : BodyId}
    (here : w.bodyAt localState it = some b) : w.Held b := by
  cases localState with
  | none => cases here
  | some s => exact ⟨s, .inr ⟨kind, reader⟩, value?_mem here⟩

/-- The list of a state is the one it was, or the current list has what it has. -/
theorem HeapChange.values {heap heap' : Heap σ} {running : Bool} {unique : StateId → Bool}
    (change : HeapChange heap running unique a heap') {s : StateId} {b : BodyId}
    (member : b ∈ (heap'.lists (heap'.states s).connectionBodies).list.values) :
    (b ∈ (heap.lists (heap.states s).connectionBodies).list.values ∧
      (heap'.impl.map SignalImpl.sharedState = some s →
        heap.impl.map SignalImpl.sharedState = some s)) ∨
    (∃ impl, heap.impl = some impl ∧ b ∈ (heap.connectionBodies impl).list.values) ∨
    ∃ impl', heap'.impl = some impl' ∧ b ∈ (heap'.connectionBodies impl').list.values := by
  cases change with
  | same => exact .inl ⟨member, id⟩
  | sweep impl list it running present name =>
      by_cases current : (heap.states s).connectionBodies =
          (heap.states impl.sharedState).connectionBodies
      · right
        right
        refine ⟨_, rfl, ?_⟩
        simp only [Heap.setGarbageCollectorIt, Heap.setConnectionBodies, current,
          Heap.connectionBodies, Function.update_self] at member ⊢
        exact member
      · left
        simp only [Heap.setGarbageCollectorIt, Heap.setConnectionBodies,
          Function.update_of_ne current] at member
        refine ⟨member, fun shared => ?_⟩
        rw [present]
        exact shared
  | copy impl present =>
      have copied : b ∈ ((heap.connectionBodies impl).copy heap.nextList).list.values →
          b ∈ (heap.connectionBodies impl).list.values := by
        intro inside
        rw [LinkedList.values, GroupedList.copy_nodes] at inside
        exact inside
      by_cases new : s = heap.nextState
      · subst new
        right
        left
        simp only [Heap.copyConnectionBodies, Function.update_self] at member
        exact ⟨impl, present, copied member⟩
      · simp only [Heap.copyConnectionBodies, Function.update_of_ne new] at member
        by_cases fresh : (heap.states s).connectionBodies = heap.nextList
        · right
          left
          rw [fresh, Function.update_self] at member
          exact ⟨impl, present, copied member⟩
        · left
          rw [Function.update_of_ne fresh] at member
          refine ⟨member, fun shared => ?_⟩
          exact absurd (Option.some.inj shared).symm new
  | assign combiner impl present alone => exact .inl ⟨member, id⟩
  | replace combiner impl present =>
      by_cases new : s = heap.nextState
      · subst new
        right
        left
        simp only [Heap.replaceCombiner, Function.update_self] at member
        exact ⟨impl, present, member⟩
      · left
        simp only [Heap.replaceCombiner, Function.update_of_ne new] at member
        refine ⟨member, fun shared => ?_⟩
        exact absurd (Option.some.inj shared).symm new
  | destroy => exact .inl ⟨member, fun gone => by cases gone⟩

/-- A list that is owned was owned before, and has only gained the body that a connect makes. -/
theorem Effect.held (effect : Effect w a w') {b : BodyId} (held : w'.Held b) :
    w.Held b ∨ b = w.nextBody := by
  obtain ⟨s, live, member⟩ := held
  rcases effect.change.heap.values member with ⟨old, stays⟩ | ⟨impl, present, old⟩ |
    ⟨impl', present', inside⟩
  · left
    refine ⟨s, ?_, old⟩
    rcases live with current | ⟨kind, reads⟩
    · exact .inl (stays current)
    · rcases (effect.change.readers kind).mem reads with before | current
      · exact .inr ⟨kind, before⟩
      · exact .inl current.1
  · exact .inl (held_of_current present old)
  · rcases effect.listEffect.current_values present' inside with ⟨impl, present, old⟩ | new
    · exact .inl (held_of_current present old)
    · exact .inr new

/-- A critical section keeps a body that was alive when it began. -/
theorem Effect.sectionBody (effect : Effect w a w') {b : BodyId}
    (kept : w'.sectionBody = some b) : w.bodyAlive b = true := by
  have before : w'.critical = w.critical → w.bodyAlive b = true := by
    intro same
    have old : w.sectionBody = some b := by
      rw [← kept, World.sectionBody, World.sectionBody, same]
    exact bodyAlive_iff.mpr (.inr (.inl old))
  have ended : w'.critical = none → w.bodyAlive b = true := by
    intro free
    rw [World.sectionBody, free] at kept
    cases kept
  cases effect with
  | grabStart client c free ready =>
      cases kept
      cases client with
      | iterator i =>
          obtain ⟨inv, found, _, _, _, here⟩ := ready
          have reader : inv.localState ∈ w.readers .invocation :=
            List.mem_map_of_mem (List.mem_of_getElem? found)
          exact bodyAlive_iff.mpr (.inl (held_of_bodyAt reader here))
      | connected => exact ready
      | traversal t =>
          obtain ⟨tr, found, _, _, _, here⟩ := ready
          have reader : tr.localState ∈ w.readers .traversal :=
            List.mem_map_of_mem (List.mem_of_getElem? found)
          exact bodyAlive_iff.mpr (.inl (held_of_bodyAt reader here))
  | containsStart t tr c weakPimpl pimpl free found inside here kind connected slot held wrapped =>
      cases kept
      have reader : tr.localState ∈ w.readers .traversal :=
        List.mem_map_of_mem (List.mem_of_getElem? found)
      exact bodyAlive_iff.mpr (.inl (held_of_bodyAt reader here))
  | promote client c p rest critical alive =>
      have old : w.sectionBody = some b := by
        rw [← kept, World.sectionBody, critical]
        rfl
      exact bodyAlive_iff.mpr (.inr (.inl old))
  | keep client c p rest locked critical =>
      have old : w.sectionBody = some b := by
        rw [← kept, World.sectionBody, critical]
        rfl
      exact bodyAlive_iff.mpr (.inr (.inl old))
  | sweepStart impl it count grabTracked after free => cases kept
  | copyAndSweep impl grabTracked after free => cases kept
  | sweepErase it i count grabTracked after impl c list next => cases kept
  | sweepSkip it i count grabTracked after impl c => cases kept
  | sweepEnd it i count grabTracked after impl critical =>
      apply ended
      exact finishCleanup_critical w impl it after
  | assignCombiner combiner impl free => exact before rfl
  | replaceCombiner combiner impl free => exact before rfl
  | start impl free => exact before rfl
  | traverse impl kind free => exact before rfl
  | destroy impl present => exact before rfl
  | move i inv inv' found move => exact before rfl
  | walk t tr tr' found walk => exact before rfl
  | outside w' outside => exact before outside.critical
  | fault u f cause u_eq =>
      apply before
      rcases u_eq with rfl | ⟨grabTracked, c, rfl⟩
      · rfl
      · obtain ⟨store, same⟩ := checkExpired_store w grabTracked c
        rw [same]
        rfl
  | _ => exact ended rfl

/-- The body that the next connect makes is the only one that comes to life. -/
theorem step_alive (other : a.ofBlock = false) (stepped : w.step a = some w') {b : BodyId}
    (alive : w'.bodyAlive b = true) : w.bodyAlive b = true ∨ b = w.nextBody := by
  have effect := (step_effect stepped).2
  rcases bodyAlive_iff.mp alive with held | kept | left
  · rcases effect.held held with before | new
    · exact .inl (bodyAlive_iff.mpr (.inl before))
    · exact .inr new
  · exact .inl (effect.sectionBody kept)
  · rcases (step_blocksKept other stepped).trash b left with before | kept
    · exact .inl (bodyAlive_iff.mpr (.inr (.inr before)))
    · exact .inl kept

end World

end Signals2
