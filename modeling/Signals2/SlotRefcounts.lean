/-
The slot reference counts: what each operation of `connection_body_base` does to
one body, and the bookkeeping that ties the counts to the connections and to the
active slots of the invocations.
-/

import Signals2.Library.IndexedLists
import Signals2.Effects

namespace Signals2

open LinkedLists

variable {σ : SignalTemplate}

/-! ### One body -/

namespace ConnectionBody

/-- The body after `dec_slot_refcount`, when its assertion holds. -/
def decremented (body : ConnectionBody σ) : ConnectionBody σ :=
  if body.slotRefcount = 1 then
    { body with slotRefcount := 0, slot := none, releases := body.releases + 1 }
  else { body with slotRefcount := body.slotRefcount - 1 }

/-- The body after `nolock_disconnect`. -/
def disconnected (body : ConnectionBody σ) : ConnectionBody σ :=
  if body.connected then { body with connected := false }.decremented else body

def incremented (body : ConnectionBody σ) : ConnectionBody σ :=
  { body with slotRefcount := body.slotRefcount + 1 }

/-- The counter says `n`, and the slot is there as long as it is positive. -/
structure Counts (body : ConnectionBody σ) (n : Nat) : Prop where
  refcount : body.slotRefcount = n
  slot : body.slot.isSome = true ↔ 0 < body.slotRefcount
  releases : body.releases ≤ 1
  unreleased : body.slot.isSome = true → body.releases = 0

/-- The connection itself and `holders` invocations use the slot. -/
def Balanced (body : ConnectionBody σ) (holders : Nat) : Prop :=
  body.Counts ((if body.connected then 1 else 0) + holders)

variable {body : ConnectionBody σ} {n holders : Nat}

theorem unallocated_balanced : (unallocated : ConnectionBody σ).Balanced 0 where
  refcount := rfl
  slot := by simp [unallocated]
  releases := Nat.zero_le 1
  unreleased := by simp [unallocated]

theorem construct_balanced (slot : Slot σ) (groupKey : GroupKey σ.Group) :
    (construct slot groupKey).Balanced 0 where
  refcount := rfl
  slot := by simp [construct]
  releases := Nat.zero_le 1
  unreleased _ := rfl

theorem Balanced.setBlocker (balanced : body.Balanced holders) (x : Option BlockerId) :
    { body with weakBlocker := x }.Balanced holders :=
  { refcount := balanced.refcount
    slot := balanced.slot
    releases := balanced.releases
    unreleased := balanced.unreleased }

theorem Counts.decremented (counts : body.Counts (n + 1)) : body.decremented.Counts n := by
  have refcount := counts.refcount
  have present : body.slot.isSome = true := counts.slot.mpr (by omega)
  have unreleased := counts.unreleased present
  unfold ConnectionBody.decremented
  by_cases last : body.slotRefcount = 1
  · rw [if_pos last]
    exact {
      refcount := by
        dsimp only
        omega
      slot := by simp
      releases := by
        dsimp only
        omega
      unreleased := by simp }
  · rw [if_neg last]
    exact {
      refcount := by
        dsimp only
        omega
      slot := by
        dsimp only
        simp only [present, true_iff]
        omega
      releases := counts.releases
      unreleased := counts.unreleased }

@[simp] theorem decremented_connected (body : ConnectionBody σ) :
    body.decremented.connected = body.connected := by
  unfold decremented
  split <;> rfl

theorem Balanced.decremented (balanced : body.Balanced (holders + 1)) :
    body.decremented.Balanced holders := by
  unfold Balanced
  rw [decremented_connected]
  exact Counts.decremented balanced

theorem Balanced.disconnected (balanced : body.Balanced holders) :
    body.disconnected.Balanced holders := by
  unfold ConnectionBody.disconnected
  by_cases connected : body.connected = true
  · rw [if_pos connected]
    have total : body.Counts (holders + 1) := by
      simpa only [Balanced, connected, if_true, Nat.add_comm] using balanced
    have quit : { body with connected := false }.Counts (holders + 1) := { total with }
    unfold Balanced
    rw [decremented_connected]
    simpa using quit.decremented
  · rw [if_neg connected]
    exact balanced

theorem Balanced.incremented (balanced : body.Balanced holders)
    (connected : body.connected = true) : body.incremented.Balanced (holders + 1) := by
  have positive : 0 < body.slotRefcount := by
    rw [balanced.refcount, if_pos connected]
    omega
  exact {
    refcount := by
      rw [ConnectionBody.incremented, balanced.refcount]
      rfl
    slot := by
      have present := balanced.slot.mpr positive
      simp [ConnectionBody.incremented, present]
    releases := balanced.releases
    unreleased := balanced.unreleased }

end ConnectionBody

/-! ### The store -/

namespace BodyStore

variable {store : BodyStore σ} {b : BodyId}

theorem decSlotRefcount_bodies (positive : 0 < (store.bodies b).slotRefcount) :
    (store.decSlotRefcount b).bodies =
      Function.update store.bodies b (store.bodies b).decremented := by
  have nonzero : (store.bodies b).slotRefcount ≠ 0 := Nat.ne_of_gt positive
  unfold decSlotRefcount ConnectionBody.decremented
  rw [if_neg nonzero]
  dsimp only
  by_cases last : (store.bodies b).slotRefcount = 1
  · rw [if_pos (by omega), if_pos last]
    simp [releaseSlot, setBody, last]
  · rw [if_neg (by omega), if_neg last]
    rfl

theorem decSlotRefcount_frame (positive : 0 < (store.bodies b).slotRefcount) :
    (store.decSlotRefcount b).nextBody = store.nextBody ∧
      (store.decSlotRefcount b).fault = store.fault := by
  have nonzero : (store.bodies b).slotRefcount ≠ 0 := Nat.ne_of_gt positive
  unfold decSlotRefcount
  rw [if_neg nonzero]
  dsimp only
  split <;> exact ⟨rfl, rfl⟩

/-- `active` lists the active slot of every invocation. -/
structure Counted (store : BodyStore σ) (active : List (Option BodyId)) : Prop where
  balanced : ∀ b, (store.bodies b).Balanced (active.count (some b))
  fresh : ∀ b, store.nextBody ≤ b → (store.bodies b).slotRefcount = 0
  sound : store.fault ≠ some .incSlotRefcount ∧ store.fault ≠ some .decSlotRefcount

variable {active : List (Option BodyId)}

theorem Counted.congr {store' : BodyStore σ} (counted : store.Counted active)
    (bodies : store'.bodies = store.bodies) (nextBody : store'.nextBody = store.nextBody)
    (fault : store'.fault = store.fault) : store'.Counted active where
  balanced := by
    rw [bodies]
    exact counted.balanced
  fresh := by
    rw [bodies, nextBody]
    exact counted.fresh
  sound := by
    rw [fault]
    exact counted.sound

theorem nolockDisconnect_spec (counted : store.Counted active) (b : BodyId) :
    (store.nolockDisconnect b).bodies =
        Function.update store.bodies b (store.bodies b).disconnected ∧
      (store.nolockDisconnect b).nextBody = store.nextBody ∧
      (store.nolockDisconnect b).fault = store.fault := by
  unfold nolockDisconnect ConnectionBody.disconnected
  by_cases connected : (store.bodies b).connected = true
  · rw [if_pos connected, if_pos connected]
    have refcount := (counted.balanced b).refcount
    rw [if_pos connected] at refcount
    have positive : 0 < ((store.setBody b
        { store.bodies b with connected := false }).bodies b).slotRefcount := by
      rw [setBody_self]
      dsimp only
      omega
    refine ⟨?_, decSlotRefcount_frame positive⟩
    rw [decSlotRefcount_bodies positive, setBody_self]
    simp [setBody]
  · rw [if_neg connected, if_neg connected]
    exact ⟨(Function.update_eq_self b store.bodies).symm, rfl, rfl⟩

/-- One body changes and the active slots with it. -/
theorem Counted.update {store' : BodyStore σ} {active' : List (Option BodyId)}
    {body : ConnectionBody σ} (counted : store.Counted active)
    (bodies : store'.bodies = Function.update store.bodies b body)
    (nextBody : store'.nextBody = store.nextBody) (fault : store'.fault = store.fault)
    (balanced : body.Balanced (active'.count (some b)))
    (others : ∀ other ≠ b, active'.count (some other) = active.count (some other))
    (known : b < store.nextBody ∨ body = store.bodies b) : store'.Counted active' where
  balanced other := by
    rw [bodies]
    by_cases same : other = b
    · rw [same, Function.update_self]
      exact balanced
    · rw [Function.update_of_ne same, others other same]
      exact counted.balanced other
  fresh other unused := by
    rw [nextBody] at unused
    rw [bodies]
    by_cases same : other = b
    · subst same
      rw [Function.update_self]
      rcases known with below | unchanged
      · exact absurd unused (Nat.not_le_of_lt below)
      · rw [unchanged]
        exact counted.fresh other unused
    · rw [Function.update_of_ne same]
      exact counted.fresh other unused
  sound := by
    rw [fault]
    exact counted.sound

/-- Only allocated bodies are connected. -/
theorem Counted.allocated (counted : store.Counted active)
    (positive : 0 < (store.bodies b).slotRefcount) : b < store.nextBody := by
  by_contra unused
  rw [counted.fresh b (Nat.le_of_not_lt unused)] at positive
  exact Nat.lt_irrefl 0 positive

theorem Counted.allocated_of_connected (counted : store.Counted active)
    (connected : (store.bodies b).connected = true) : b < store.nextBody := by
  refine counted.allocated (b := b) ?_
  rw [(counted.balanced b).refcount, if_pos connected]
  omega

theorem Counted.nolockDisconnect (counted : store.Counted active) (b : BodyId) :
    (store.nolockDisconnect b).Counted active := by
  obtain ⟨bodies, nextBody, fault⟩ := nolockDisconnect_spec counted b
  refine counted.update bodies nextBody fault (counted.balanced b).disconnected
    (fun _ _ => rfl) ?_
  by_cases connected : (store.bodies b).connected = true
  · exact .inl (counted.allocated_of_connected connected)
  · exact .inr (by rw [ConnectionBody.disconnected, if_neg connected])

private theorem count_set {i : Nat} {old : Option BodyId}
    (found : active[i]? = some old) (new : Option BodyId) (b : BodyId) :
    (active.set i new).count (some b) + (if old = some b then 1 else 0) =
      active.count (some b) + (if new = some b then 1 else 0) := by
  have counts := IndexedLists.countP_set (· == some b) found new
  simpa only [List.count, beq_iff_eq] using counts

/-- An invocation gives its active slot back. -/
theorem Counted.decSlotRefcount {i : Nat} (counted : store.Counted active)
    (found : active[i]? = some (some b)) :
    (store.decSlotRefcount b).Counted (active.set i none) := by
  have held : active.count (some b) = (active.set i none).count (some b) + 1 := by
    simpa using (count_set found none b).symm
  have balanced := counted.balanced b
  have refcount := balanced.refcount
  have positive : 0 < (store.bodies b).slotRefcount := by omega
  obtain ⟨nextBody, fault⟩ := decSlotRefcount_frame positive
  refine counted.update (decSlotRefcount_bodies positive) nextBody fault ?_ ?_
    (.inl (counted.allocated positive))
  · rw [held] at balanced
    exact balanced.decremented
  · intro other apart
    simpa [Ne.symm apart] using count_set found none other

/-- An invocation without an active slot takes a connected one. -/
theorem Counted.incSlotRefcount {i : Nat} (counted : store.Counted active)
    (found : active[i]? = some none) (connected : (store.bodies b).connected = true) :
    (store.incSlotRefcount b).Counted (active.set i (some b)) := by
  have held : (active.set i (some b)).count (some b) = active.count (some b) + 1 := by
    simpa using count_set found (some b) b
  have balanced := counted.balanced b
  have refcount := balanced.refcount
  rw [if_pos connected] at refcount
  have nonzero : (store.bodies b).slotRefcount ≠ 0 := by omega
  have stepped : store.incSlotRefcount b = store.setBody b (store.bodies b).incremented := by
    rw [BodyStore.incSlotRefcount, if_neg nonzero]
    rfl
  rw [stepped]
  refine counted.update rfl rfl rfl ?_ ?_ (.inl (counted.allocated_of_connected connected))
  · rw [held]
    exact balanced.incremented connected
  · intro other apart
    simpa [Ne.symm apart] using count_set found (some b) other

theorem Counted.setActiveSlot {i : Nat} {old new : Option BodyId}
    (counted : store.Counted active) (found : active[i]? = some old)
    (callable : ∀ b, new = some b → (store.bodies b).connected = true) :
    (store.setActiveSlot old new).Counted (active.set i new) := by
  have bound : i < active.length := (List.getElem?_eq_some_iff.mp found).1
  cases old with
  | none =>
      cases new with
      | none =>
          have same : active.set i none = active := by
            rw [List.getElem?_eq_some_iff] at found
            obtain ⟨bound, here⟩ := found
            rw [← here, List.set_getElem_self]
          rw [same]
          exact counted
      | some b => exact counted.incSlotRefcount found (callable b rfl)
  | some held =>
      have released := counted.decSlotRefcount found
      cases new with
      | none => exact released
      | some b =>
          have again := released.incSlotRefcount (List.getElem?_set_self bound)
            ((decSlotRefcount_connected held b).trans (callable b rfl))
          rwa [List.set_set] at again

/-- A new invocation has no active slot. -/
theorem Counted.idle (counted : store.Counted active) : store.Counted (active ++ [none]) where
  balanced b := by
    have same : (active ++ [none]).count (some b) = active.count (some b) := by simp
    rw [same]
    exact counted.balanced b
  fresh := counted.fresh
  sound := counted.sound

theorem Counted.newConnectionBody (counted : store.Counted active) (slot : Slot σ)
    (groupKey : GroupKey σ.Group) : (store.newConnectionBody slot groupKey).Counted active where
  balanced b := by
    by_cases same : b = store.nextBody
    · have balanced := counted.balanced b
      have refcount := balanced.refcount
      rw [counted.fresh b (Nat.le_of_eq same.symm)] at refcount
      have unused : active.count (some b) = 0 := (Nat.add_eq_zero_iff.mp refcount.symm).2
      rw [unused, same, newConnectionBody_new]
      exact ConnectionBody.construct_balanced slot groupKey
    · rw [newConnectionBody_old slot groupKey same]
      exact counted.balanced b
  fresh b unused := by
    have apart : b ≠ store.nextBody := by
      intro same
      rw [same] at unused
      exact absurd unused (Nat.not_succ_le_self _)
    have older : store.nextBody ≤ b := Nat.le_of_succ_le unused
    rw [newConnectionBody_old slot groupKey apart]
    exact counted.fresh b older
  sound := counted.sound

end BodyStore

/-! ### The machine keeps the counts -/

namespace World

variable {w w' u : World σ} {a : Action σ}

def activeSlots (w : World σ) : List (Option BodyId) :=
  w.invocations.map Invocation.activeSlot

def Counted (w : World σ) : Prop := w.toBodyStore.Counted w.activeSlots

theorem construct_counted (combiner : σ.Combiner)
    (defaultCompare groupCompare : σ.Group → σ.Group → Bool) (owners : ObjectId → Nat) :
    (World.construct combiner defaultCompare groupCompare owners).Counted where
  balanced _ := ConnectionBody.unallocated_balanced
  fresh _ _ := rfl
  sound := ⟨(fun raised => by cases raised), (fun raised => by cases raised)⟩

/-- The counts do not see the garbage. -/
theorem Counted.congr (counted : w.Counted) (bodies : w'.bodies = w.bodies)
    (nextBody : w'.nextBody = w.nextBody) (fault : w'.fault = w.fault)
    (active : w'.activeSlots = w.activeSlots) : w'.Counted := by
  unfold Counted
  rw [active]
  exact BodyStore.Counted.congr counted bodies nextBody fault

theorem activeSlots_set {i : InvocationId} {inv inv' : Invocation σ}
    (found : w.invocations[i]? = some inv) (same : inv'.activeSlot = inv.activeSlot) :
    (w.invocations.set i inv').map Invocation.activeSlot = w.activeSlots :=
  IndexedLists.map_set_same found same

theorem Counted.nolockDisconnect (counted : w.Counted) (b : BodyId) :
    (w.nolockDisconnect b).Counted :=
  BodyStore.Counted.nolockDisconnect counted b

theorem Counted.ended (counted : w.Counted) {b : BodyId} {todo : List VoidWeakPtr}
    {locked : Option (Option ObjectId)} (ended : Ended w b todo locked u) : u.Counted := by
  cases ended with
  | grabbed locked => exact counted
  | expired p rest expired => exact counted.nolockDisconnect b

theorem Counted.checkExpired (counted : w.Counted) (grabTracked : Bool) (b : BodyId) :
    (w.checkExpired grabTracked b).Counted := by
  unfold World.checkExpired disconnectExpiredSlot
  split
  · split
    · exact counted
    · split
      · exact counted.nolockDisconnect b
      · exact counted
  · exact counted

/-- An invocation trades its active slot for another one. -/
theorem Counted.activate {i : InvocationId} {inv inv' : Invocation σ} {new : Option BodyId}
    (counted : w.Counted) (found : w.invocations[i]? = some inv)
    (active : inv'.activeSlot = new)
    (callable : ∀ b, new = some b → (w.bodies b).connected = true) :
    ((w.setActiveSlot inv.activeSlot new).setInvocation i inv').unlock.Counted := by
  have here : w.activeSlots[i]? = some inv.activeSlot := by
    simp [activeSlots, found]
  have traded := BodyStore.Counted.setActiveSlot counted here callable
  have slots : (w.invocations.set i inv').map Invocation.activeSlot =
      w.activeSlots.set i new := by
    rw [List.map_set, active]
    rfl
  unfold Counted
  change BodyStore.Counted _ ((w.invocations.set i inv').map Invocation.activeSlot)
  rw [slots]
  exact traded.congr rfl rfl rfl

theorem Counted.startInvocation (counted : w.Counted) {impl : SignalImpl} :
    (w.startInvocation impl).Counted := by
  have slots : (w.startInvocation impl).activeSlots = w.activeSlots ++ [none] := by
    simp [activeSlots, World.startInvocation, newInvocation]
  unfold Counted
  rw [slots]
  exact BodyStore.Counted.idle counted

theorem counted_activeSlot (inv : Invocation σ) (connected : Bool) :
    (counted inv connected).activeSlot = inv.activeSlot := by
  cases connected <;> rfl

theorem Move.activeSlot {i : InvocationId} {inv inv' : Invocation σ}
    (move : Move w i inv a inv') : inv'.activeSlot = inv.activeSlot := by
  cases move <;> rfl

theorem Counted.step (counted : w.Counted) (effect : Effect w a w') : w'.Counted := by
  cases effect with
  | keep client b p rest locked critical =>
      unfold insertLocked
      split
      · split
        · exact counted.congr rfl rfl rfl rfl
        · rename_i inv found
          exact counted.congr rfl rfl rfl (activeSlots_set found rfl)
      · exact counted.congr rfl rfl rfl rfl
  | start impl free present shared => exact counted.startInvocation
  | answer b todo locked u critical ended =>
      exact (counted.ended ended).congr rfl rfl rfl rfl
  | count t b todo locked u tr critical ended found =>
      exact (counted.ended ended).congr rfl rfl rfl rfl
  | commit i b locked inv critical found connected unblocked =>
      refine counted.activate found rfl ?_
      intro other same
      cases same
      exact connected
  | skip i b todo locked u inv critical ended found blocked =>
      have later := counted.ended ended
      obtain ⟨store, rfl⟩ := ended.store
      exact later.congr rfl rfl rfl (activeSlots_set found (counted_activeSlot inv _))
  | lost client b todo locked u critical ended missing =>
      exact (counted.ended ended).congr rfl rfl rfl rfl
  | contains t b weakPimpl pimpl locked u tr critical tested found =>
      have later : u.Counted := by
        rw [tested]
        split
        · exact counted.nolockDisconnect b
        · exact counted
      exact later.congr rfl rfl rfl rfl
  | containsLost t b weakPimpl pimpl locked u critical tested missing =>
      have later : u.Counted := by
        rw [tested]
        split
        · exact counted.nolockDisconnect b
        · exact counted
      exact later.congr rfl rfl rfl rfl
  | sweepErase it i count grabTracked after impl b list next critical present inside more here
      dead erased =>
      exact (counted.checkExpired grabTracked b).congr rfl rfl rfl rfl
  | sweepSkip it i count grabTracked after impl b critical present inside more here connected =>
      exact (counted.checkExpired grabTracked b).congr rfl rfl rfl rfl
  | sweepEnd it i count grabTracked after impl critical present done =>
      unfold finishCleanup
      cases after with
      | connect arguments =>
          exact (BodyStore.Counted.newConnectionBody counted arguments.slot
            (groupKeyOf arguments)).congr rfl rfl rfl
      | invoke => exact counted.startInvocation.congr rfl rfl rfl rfl
      | forceCleanup i =>
          dsimp only
          split
          · exact counted.congr rfl rfl rfl rfl
          · rename_i inv found
            exact counted.congr rfl rfl rfl (activeSlots_set found rfl)
  | disconnect b free alive => exact (counted.nolockDisconnect b).congr rfl rfl rfl rfl
  | throwExpired i inv b free found phase here =>
      have thrown : (w.setInvocation i { inv with phase := .ready }).Counted :=
        counted.congr rfl rfl rfl (activeSlots_set found rfl)
      exact (thrown.nolockDisconnect b).congr rfl rfl rfl rfl
  | walkDisconnect t tr b free found inside here targets =>
      exact (counted.nolockDisconnect b).congr rfl rfl rfl rfl
  | move i inv inv' found move =>
      exact counted.congr rfl rfl rfl (activeSlots_set found move.activeSlot)
  | reachEnd i inv free found phase atEnd callable => exact counted.activate found rfl (by simp)
  | destroyCache i inv free found phase active => exact counted.activate found rfl (by simp)
  | outside w' outside =>
      have slots : w'.activeSlots = w.activeSlots := by
        simp only [activeSlots, outside.invocations]
      exact {
        balanced := fun b => by
          rw [outside.bodies b, slots]
          exact (counted.balanced b).setBlocker _
        fresh := fun b unused => by
          rw [outside.nextBody] at unused
          rw [outside.bodies b]
          exact counted.fresh b unused
        sound := by
          rw [outside.fault]
          exact counted.sound }
  | fault u f cause u_eq =>
      have sound : f ≠ .incSlotRefcount ∧ f ≠ .decSlotRefcount := by
        cases cause <;> exact ⟨(by simp), (by simp)⟩
      have later : u.Counted := by
        rcases u_eq with rfl | ⟨grabTracked, b, rfl⟩
        · exact counted
        · exact counted.checkExpired grabTracked b
      exact {
        balanced := later.balanced
        fresh := later.fresh
        sound := ⟨fun same => sound.1 (Option.some.inj same),
          fun same => sound.2 (Option.some.inj same)⟩ }
  | _ => exact counted.congr rfl rfl rfl rfl

end World

end Signals2
