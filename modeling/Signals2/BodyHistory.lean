/-
What never comes back in a connection body: a connection once lost, a slot once
released, the key it was listed under.  Lists only ever name bodies that exist.
-/

import Signals2.Sharing

namespace Signals2

open LinkedLists

variable {σ : SignalTemplate}

/-- What a body can become. -/
structure ConnectionBody.Ages (body body' : ConnectionBody σ) : Prop where
  connected : body'.connected = true → body.connected = true
  slot : ∀ slot, body'.slot = some slot → body.slot = some slot
  groupKey : body'.groupKey = body.groupKey

namespace ConnectionBody

theorem Ages.refl (body : ConnectionBody σ) : body.Ages body := ⟨id, fun _ => id, rfl⟩

theorem Ages.trans {first second third : ConnectionBody σ} (left : first.Ages second)
    (right : second.Ages third) : first.Ages third where
  connected now := left.connected (right.connected now)
  slot slot now := left.slot slot (right.slot slot now)
  groupKey := right.groupKey.trans left.groupKey

end ConnectionBody

namespace BodyStore

variable {store : BodyStore σ} {b : BodyId}

/-- Every body ages, and none is added. -/
structure Ages (store store' : BodyStore σ) : Prop where
  bodies : ∀ b, (store.bodies b).Ages (store'.bodies b)
  nextBody : store'.nextBody = store.nextBody

theorem Ages.refl (store : BodyStore σ) : store.Ages store := ⟨fun _ => .refl _, rfl⟩

theorem Ages.trans {first second third : BodyStore σ} (left : first.Ages second)
    (right : second.Ages third) : first.Ages third :=
  ⟨fun b => (left.bodies b).trans (right.bodies b), right.nextBody.trans left.nextBody⟩

theorem setBody_ages {body : ConnectionBody σ} (ages : (store.bodies b).Ages body) :
    store.Ages (store.setBody b body) := by
  refine ⟨fun other => ?_, rfl⟩
  by_cases same : other = b
  · rw [same, setBody_self]
    exact ages
  · rw [setBody_other body same]
    exact .refl _

theorem incSlotRefcount_ages (b : BodyId) : store.Ages (store.incSlotRefcount b) := by
  unfold incSlotRefcount
  split
  · exact ⟨fun _ => .refl _, rfl⟩
  · exact setBody_ages ⟨id, fun _ => id, rfl⟩

theorem releaseSlot_ages (b : BodyId) : store.Ages (store.releaseSlot b) := by
  have gone : store.Ages (store.setBody b
      { store.bodies b with slot := none, releases := (store.bodies b).releases + 1 }) :=
    setBody_ages ⟨id, (fun slot now => by cases now), rfl⟩
  exact ⟨gone.bodies, gone.nextBody⟩

theorem decSlotRefcount_ages (b : BodyId) : store.Ages (store.decSlotRefcount b) := by
  have lowered : store.Ages (store.setBody b
      { store.bodies b with slotRefcount := (store.bodies b).slotRefcount - 1 }) :=
    setBody_ages ⟨id, fun _ => id, rfl⟩
  unfold decSlotRefcount
  split
  · exact ⟨fun _ => .refl _, rfl⟩
  · dsimp only
    split
    · exact lowered.trans (releaseSlot_ages b)
    · exact lowered

theorem nolockDisconnect_ages (b : BodyId) : store.Ages (store.nolockDisconnect b) := by
  unfold nolockDisconnect
  split
  · have lost : store.Ages (store.setBody b { store.bodies b with connected := false }) :=
      setBody_ages ⟨(fun now => by cases now), fun _ => id, rfl⟩
    exact lost.trans (decSlotRefcount_ages b)
  · exact .refl store

theorem setActiveSlot_ages (old new : Option BodyId) :
    store.Ages (store.setActiveSlot old new) := by
  unfold setActiveSlot
  cases old with
  | none =>
      cases new with
      | none => exact .refl store
      | some b => exact incSlotRefcount_ages b
  | some held =>
      cases new with
      | none => exact decSlotRefcount_ages held
      | some b => exact (decSlotRefcount_ages held).trans (incSlotRefcount_ages b)

end BodyStore

namespace World

variable {w w' u : World σ} {a : Action σ}

theorem Ended.ages {b : BodyId} {todo : List VoidWeakPtr} {locked : Option (Option ObjectId)}
    (ended : Ended w b todo locked u) : w.toBodyStore.Ages u.toBodyStore := by
  cases ended with
  | grabbed locked => exact .refl _
  | expired p rest expired => exact BodyStore.nolockDisconnect_ages b

theorem checkExpired_ages (grabTracked : Bool) (b : BodyId) :
    w.toBodyStore.Ages (w.checkExpired grabTracked b).toBodyStore := by
  unfold checkExpired disconnectExpiredSlot
  split
  · split
    · exact .refl _
    · split
      · exact BodyStore.nolockDisconnect_ages b
      · exact .refl _
  · exact .refl _

theorem tested_ages {b : BodyId} {condition : Prop} [Decidable condition]
    (tested : u = if condition then w.nolockDisconnect b else w) :
    w.toBodyStore.Ages u.toBodyStore := by
  subst tested
  split
  · exact BodyStore.nolockDisconnect_ages b
  · exact .refl _

/-- The end of a cleanup that makes a new connection. -/
def Connects (w : World σ) (arguments : ConnectArguments σ) : Prop :=
  ∃ it i count grabTracked impl,
    w.critical = some (.cleanupConnections it i count grabTracked (.connect arguments)) ∧
      w.heap.impl = some impl ∧
      ¬ (it ≠ (w.heap.connectionBodies impl).list.past ∧ (count = 0 ∨ i < count))

/-- Every step ages the bodies, but for the one that ends a connect. -/
theorem Effect.ages (effect : Effect w a w') :
    w.toBodyStore.Ages w'.toBodyStore ∨
      a = .section ∧ ∃ arguments, w.Connects arguments ∧
        w'.bodies = (w.toBodyStore.newConnectionBody arguments.slot
          (groupKeyOf arguments)).bodies ∧
        w'.nextBody = w.nextBody + 1 := by
  cases effect with
  | keep client b p rest locked critical =>
      left
      unfold insertLocked
      split
      · split <;> exact .refl _
      · exact .refl _
  | answer b todo locked u critical ended => exact .inl ⟨ended.ages.bodies, ended.ages.nextBody⟩
  | count t b todo locked u tr critical ended found =>
      exact .inl ⟨ended.ages.bodies, ended.ages.nextBody⟩
  | commit i b locked inv critical found connected unblocked =>
      have ages : w.toBodyStore.Ages _ := BodyStore.setActiveSlot_ages inv.activeSlot (some b)
      exact .inl ⟨ages.bodies, ages.nextBody⟩
  | skip i b todo locked u inv critical ended found blocked =>
      exact .inl ⟨ended.ages.bodies, ended.ages.nextBody⟩
  | lost client b todo locked u critical ended missing =>
      exact .inl ⟨ended.ages.bodies, ended.ages.nextBody⟩
  | contains t b weakPimpl pimpl locked u tr critical tested found =>
      exact .inl ⟨(tested_ages tested).bodies, (tested_ages tested).nextBody⟩
  | containsLost t b weakPimpl pimpl locked u critical tested missing =>
      exact .inl ⟨(tested_ages tested).bodies, (tested_ages tested).nextBody⟩
  | sweepErase it i count grabTracked after impl b list next critical present inside more here
      dead erased => exact .inl (checkExpired_ages grabTracked b)
  | sweepSkip it i count grabTracked after impl b critical present inside more here connected =>
      exact .inl (checkExpired_ages grabTracked b)
  | sweepEnd it i count grabTracked after impl critical present done =>
      unfold finishCleanup
      cases after with
      | connect arguments =>
          exact .inr ⟨rfl, arguments, ⟨it, i, count, grabTracked, impl, critical, present, done⟩,
            rfl, rfl⟩
      | invoke => exact .inl ⟨fun _ => .refl _, rfl⟩
      | forceCleanup i =>
          dsimp only
          split <;> exact .inl ⟨fun _ => .refl _, rfl⟩
  | disconnect b free alive =>
      have ages : w.toBodyStore.Ages _ := BodyStore.nolockDisconnect_ages b
      exact .inl ⟨ages.bodies, ages.nextBody⟩
  | throwExpired i inv b free found phase here =>
      have ages : w.toBodyStore.Ages _ := BodyStore.nolockDisconnect_ages b
      exact .inl ⟨ages.bodies, ages.nextBody⟩
  | walkDisconnect t tr b free found inside here targets =>
      have ages : w.toBodyStore.Ages _ := BodyStore.nolockDisconnect_ages b
      exact .inl ⟨ages.bodies, ages.nextBody⟩
  | reachEnd i inv free found phase atEnd callable =>
      have ages : w.toBodyStore.Ages _ := BodyStore.setActiveSlot_ages inv.activeSlot none
      exact .inl ⟨ages.bodies, ages.nextBody⟩
  | destroyCache i inv free found phase active =>
      have ages : w.toBodyStore.Ages _ := BodyStore.setActiveSlot_ages inv.activeSlot none
      exact .inl ⟨ages.bodies, ages.nextBody⟩
  | outside w' outside =>
      refine .inl ⟨fun b => ?_, outside.nextBody⟩
      rw [outside.bodies b]
      exact ⟨id, fun _ => id, rfl⟩
  | fault u f cause u_eq =>
      rcases u_eq with rfl | ⟨grabTracked, b, rfl⟩
      · exact .inl ⟨fun _ => .refl _, rfl⟩
      · have ages := checkExpired_ages (w := w) grabTracked b
        exact .inl ⟨ages.bodies, ages.nextBody⟩
  | _ => exact .inl ⟨fun _ => .refl _, rfl⟩

theorem Effect.nextBody_le (effect : Effect w a w') : w.nextBody ≤ w'.nextBody := by
  rcases effect.ages with ages | ⟨_, arguments, connects, bodies, nextBody⟩
  · exact Nat.le_of_eq ages.nextBody.symm
  · rw [nextBody]
    exact Nat.le_succ _

/-- A body that exists keeps its slot or loses it. -/
theorem Effect.slot_kept (effect : Effect w a w') {b : BodyId}
    (below : b < w.nextBody) {slot : Slot σ} (held : (w'.bodies b).slot = some slot) :
    (w.bodies b).slot = some slot := by
  rcases effect.ages with ages | ⟨_, arguments, connects, bodies, nextBody⟩
  · exact (ages.bodies b).slot slot held
  · rw [bodies, BodyStore.newConnectionBody_old _ _ (Nat.ne_of_lt below)] at held
    exact held

theorem Effect.connected_kept (effect : Effect w a w') {b : BodyId} (below : b < w.nextBody)
    (connected : (w'.bodies b).connected = true) : (w.bodies b).connected = true := by
  rcases effect.ages with ages | ⟨_, arguments, connects, bodies, nextBody⟩
  · exact (ages.bodies b).connected connected
  · rw [bodies, BodyStore.newConnectionBody_old _ _ (Nat.ne_of_lt below)] at connected
    exact connected

/-! ### Lists name bodies that exist -/

/-- Some list has a node for the body. -/
def Listed (heap : Heap σ) (b : BodyId) : Prop := ∃ l, b ∈ (heap.lists l).list.values

theorem mem_values_insertBefore {new : Nat × BodyId} {nodes : List (Nat × BodyId)}
    {position : Option Nat} {b : BodyId}
    (member : b ∈ (insertBefore new nodes position).map Prod.snd) :
    b = new.2 ∨ b ∈ nodes.map Prod.snd := by
  have moved := ((insertBefore_perm new nodes position).map Prod.snd).mem_iff.mp member
  exact List.mem_cons.mp moved

theorem mem_pushConnection {list : GroupedList σ.Group BodyId} {arguments : ConnectArguments σ}
    {b new : BodyId} (member : b ∈ (pushConnection list arguments new).list.values) :
    b = new ∨ b ∈ list.list.values := by
  unfold pushConnection at member
  split at member
  · exact mem_values_insertBefore member
  · exact mem_values_insertBefore member

theorem mem_erase {list : LinkedList BodyId} {it : Iterator} {b : BodyId}
    (member : b ∈ (list.erase it).values) : b ∈ list.values := by
  obtain ⟨node, inside, rfl⟩ := List.mem_map.mp member
  exact List.mem_map.mpr ⟨node, (List.mem_filter.mp inside).1, rfl⟩

private theorem listed_update {heap : Heap σ} {l other : ListId}
    {list : GroupedList σ.Group BodyId} {b : BodyId} {Known : Prop}
    (member : b ∈ (Function.update heap.lists l list other).list.values)
    (new : b ∈ list.list.values → Known) : Listed heap b ∨ Known := by
  by_cases same : other = l
  · rw [same, Function.update_self] at member
    exact .inr (new member)
  · rw [Function.update_of_ne same] at member
    exact .inl ⟨other, member⟩

/-- A list gains no body but the one that a connect makes. -/
theorem Effect.listed (effect : Effect w a w') {b : BodyId} (listed : Listed w'.heap b) :
    Listed w.heap b ∨ b = w.nextBody ∧ w'.nextBody = w.nextBody + 1 := by
  obtain ⟨l, member⟩ := listed
  cases effect with
  | copyAndSweep impl grabTracked after free present shared ready =>
      exact (listed_update member fun inside => ⟨_, inside⟩).elim .inl .inl
  | keep client b p rest locked critical =>
      left
      unfold insertLocked at member
      split at member
      · split at member <;> exact ⟨l, member⟩
      · exact ⟨l, member⟩
  | count t b todo locked u tr critical ended found =>
      obtain ⟨store, rfl⟩ := ended.store
      exact .inl ⟨l, member⟩
  | answer b todo locked u critical ended =>
      obtain ⟨store, rfl⟩ := ended.store
      exact .inl ⟨l, member⟩
  | skip i b todo locked u inv critical ended found blocked =>
      obtain ⟨store, rfl⟩ := ended.store
      exact .inl ⟨l, member⟩
  | lost client b todo locked u critical ended missing =>
      obtain ⟨store, rfl⟩ := ended.store
      exact .inl ⟨l, member⟩
  | contains t b weakPimpl pimpl locked u tr critical tested found =>
      obtain ⟨store, rfl⟩ := tested_store tested
      exact .inl ⟨l, member⟩
  | containsLost t b weakPimpl pimpl locked u critical tested missing =>
      obtain ⟨store, rfl⟩ := tested_store tested
      exact .inl ⟨l, member⟩
  | sweepErase it i count grabTracked after impl body list next critical present inside more here
      dead erased =>
      refine (listed_update member fun inside => ?_).elim .inl .inl
      rw [(GroupedList.erase_some erased).1] at inside
      exact ⟨_, mem_erase inside⟩
  | sweepSkip it i count grabTracked after impl b critical present inside more here connected =>
      obtain ⟨store, same⟩ := checkExpired_store w grabTracked b
      rw [same] at member
      exact .inl ⟨l, member⟩
  | sweepEnd it i count grabTracked after impl critical present done =>
      unfold finishCleanup at member ⊢
      cases after with
      | connect arguments =>
          have known : Listed w.heap b ∨ b = w.nextBody ∨ Listed w.heap b :=
            listed_update member fun inside =>
              (mem_pushConnection inside).imp id fun old => ⟨_, old⟩
          rcases known with old | rfl | old
          · exact .inl old
          · exact .inr ⟨rfl, rfl⟩
          · exact .inl old
      | invoke => exact .inl ⟨l, member⟩
      | forceCleanup i =>
          left
          dsimp only at member
          split at member <;> exact ⟨l, member⟩
  | outside w' outside =>
      rw [outside.heap] at member
      exact .inl ⟨l, member⟩
  | fault u f cause u_eq =>
      rcases u_eq with rfl | ⟨grabTracked, b, rfl⟩
      · exact .inl ⟨l, member⟩
      · obtain ⟨store, same⟩ := checkExpired_store w grabTracked b
        rw [same] at member
        exact .inl ⟨l, member⟩
  | _ => exact .inl ⟨l, member⟩

/-- Lists name bodies that exist, after every step. -/
theorem Effect.listed_below (effect : Effect w a w')
    (below : ∀ b, Listed w.heap b → b < w.nextBody) :
    ∀ b, Listed w'.heap b → b < w'.nextBody := by
  intro b listed
  rcases effect.listed listed with old | ⟨new, nextBody⟩
  · exact Nat.lt_of_lt_of_le (below b old) effect.nextBody_le
  · rw [new, nextBody]
    exact Nat.lt_succ_self _

end World

end Signals2
