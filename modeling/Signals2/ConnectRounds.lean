/-
A connect up to the moment of its exception.  The cleanup that comes first leaves the
sequence of live connections as it was, in each of its rounds; whether the saved position
still counts then depends on where the cleanup has been.
-/

import Signals2.ConnectExceptions

namespace Signals2

open LinkedLists OrderedInsertion

variable {σ : SignalTemplate}

namespace World

variable {w w' : World σ} {a : Action σ} {compare : σ.Group → σ.Group → Bool}

/-! ### What every run keeps -/

/-- The signal may be destroyed and its combiner set at any time. -/
structure Upheld (compare : σ.Group → σ.Group → Bool) (w : World σ) : Prop where
  current : w.Current compare
  listed : ∀ b, Listed w.heap b → b < w.nextBody
  distinct : w.CurrentDistinct
  counted : w.Counted
  sharing : w.Sharing

theorem Upheld.maintained (upheld : w.Upheld compare) (present : w.heap.impl ≠ none) :
    w.Maintained compare :=
  { upheld with present := present }

theorem construct_upheld (combiner : σ.Combiner) (compare : σ.Group → σ.Group → Bool)
    (owners : ObjectId → Nat) :
    (World.construct combiner compare compare owners).Upheld compare :=
  { construct_maintained combiner compare owners with
    sharing := construct_sharing combiner compare compare owners }

theorem Upheld.step (upheld : w.Upheld compare) (order : StrictWeak compare)
    (effect : Effect w a w') : w'.Upheld compare where
  current := upheld.current.step order upheld.listed effect
  listed := effect.listed_below upheld.listed
  distinct := upheld.distinct.step upheld.listed effect
  counted := upheld.counted.step effect
  sharing := upheld.sharing.step effect.change

theorem Upheld.run {final : World σ} {actions : List (Action σ)} (upheld : w.Upheld compare)
    (order : StrictWeak compare) (ran : Runs.run World.step w actions = some final) :
    final.Upheld compare := by
  have free : Runs.Guarded World.step (fun _ _ => True) w actions :=
    .of_forall fun _ _ _ => trivial
  exact Runs.run_invariant (fun _ _ _ before _ stepped => before.step order (step_effect stepped).2)
    upheld free ran

theorem Upheld.checkExpired (upheld : w.Upheld compare) (grabTracked : Bool) (b : BodyId) :
    (w.checkExpired grabTracked b).Upheld compare := by
  have counted := upheld.counted.checkExpired grabTracked b
  have ages := checkExpired_ages (w := w) grabTracked b
  have keys : (w.checkExpired grabTracked b).keyOf = w.keyOf :=
    funext fun other => (ages.bodies other).groupKey
  obtain ⟨store, same⟩ := checkExpired_store w grabTracked b
  rw [same] at counted ages keys ⊢
  exact {
    current :=
      { consistent := fun impl present => by
          rw [keys]
          exact upheld.current.consistent impl present
        saved := upheld.current.saved
        running := upheld.current.running }
    listed := fun other listed => by
      have below := upheld.listed other listed
      exact Nat.lt_of_lt_of_eq below ages.nextBody.symm
    distinct := upheld.distinct
    counted := counted
    sharing :=
      { heap := upheld.sharing.heap
        readers := fun kind => by
          cases kind with
          | invocation => exact upheld.sharing.readers .invocation
          | traversal => exact upheld.sharing.readers .traversal
        exclusive := fun running s current kind => by
          cases kind with
          | invocation => exact upheld.sharing.exclusive running s current .invocation
          | traversal => exact upheld.sharing.exclusive running s current .traversal } }

/-! ### The sequence of live connections -/

theorem liveConnections_congr
    (values : w'.currentBodies.filter w.live = w.currentBodies.filter w.live)
    (live : ∀ b, w'.live b = w.live b)
    (kept : ∀ b, w.live b = true → w'.liveConnection b = w.liveConnection b) :
    w'.liveConnections = w.liveConnections := by
  have same : w'.live = w.live := funext live
  rw [liveConnections, same, values, liveConnections]
  refine List.map_congr_left fun b member => ?_
  exact kept b (List.mem_filter.mp member).2

theorem live_of_same (bodies : w'.bodies = w.bodies) (owned : w'.owned = w.owned) (b : BodyId) :
    w'.live b = w.live b := by
  have expired : w'.expired = w.expired := funext fun p => by simp only [World.expired, owned]
  simp only [live, slotExpired, bodies, expired]

theorem liveConnections_of_same (values : w'.currentBodies = w.currentBodies)
    (bodies : w'.bodies = w.bodies) (owned : w'.owned = w.owned) :
    w'.liveConnections = w.liveConnections := by
  apply liveConnections_congr
  · rw [values]
  · exact live_of_same bodies owned
  · intro b _
    simp only [liveConnection, keyOf, bodies]

/-- The check leaves a live connection alone. -/
theorem checkExpired_of_live {b : BodyId} (now : w.live b = true) (grabTracked : Bool) :
    w.checkExpired grabTracked b = w := by
  unfold checkExpired disconnectExpiredSlot
  rw [(live_iff.mp now).2]
  split
  · split
    · rfl
    · rfl
  · rfl

theorem checkExpired_live (grabTracked : Bool) (b other : BodyId) :
    (w.checkExpired grabTracked b).live other = w.live other := by
  by_cases same : other = b
  · subst same
    unfold checkExpired disconnectExpiredSlot
    split
    · split
      · rfl
      · split
        · rename_i gone
          have lost : ((w.nolockDisconnect other).bodies other).connected = false :=
            BodyStore.nolockDisconnect_connected other
          simp [live, lost, gone]
        · rfl
    · rfl
  · have expired : (w.checkExpired grabTracked b).expired = w.expired :=
      funext fun p => by simp only [World.expired, checkExpired_owned]
    simp only [live, slotExpired, checkExpired_apart grabTracked same, expired]

theorem checkExpired_connected (w : World σ) (b : BodyId) :
    ((w.checkExpired true b).bodies b).connected = w.live b := by
  unfold checkExpired disconnectExpiredSlot
  rw [if_pos rfl]
  split
  · rename_i released
    have none : (w.bodies b).slot = none := by simpa using released
    simp [live, slotExpired, ConnectionBody.trackedObjects, none]
  · split
    · rename_i gone
      have lost : ((w.nolockDisconnect b).bodies b).connected = false :=
        BodyStore.nolockDisconnect_connected b
      simp [live, lost, gone]
    · rename_i held
      simp [live, held]

theorem checkExpired_liveConnection (grabTracked : Bool) (b : BodyId) {other : BodyId}
    (now : w.live other = true) :
    (w.checkExpired grabTracked b).liveConnection other = w.liveConnection other := by
  by_cases same : other = b
  · subst same
    rw [checkExpired_of_live now]
  · simp only [liveConnection, keyOf, checkExpired_apart grabTracked same]

theorem checkExpired_liveConnections (w : World σ) (grabTracked : Bool) (b : BodyId) :
    (w.checkExpired grabTracked b).liveConnections = w.liveConnections := by
  have bodies : (w.checkExpired grabTracked b).currentBodies = w.currentBodies := by
    simp only [currentBodies, checkExpired_heap]
  apply liveConnections_congr
  · rw [bodies]
  · exact checkExpired_live grabTracked b
  · intro other now
    exact checkExpired_liveConnection grabTracked b now

/-! ### The rounds before the exception -/

/-- What the rounds of a cleanup leave as it was. -/
structure RoundsKeep (w w' : World σ) : Prop where
  sequence : w'.liveConnections = w.liveConnections
  bodies : ∀ b ∈ w'.currentBodies, b ∈ w.currentBodies
  impl : w'.heap.impl = w.heap.impl
  states : w'.heap.states = w.heap.states
  nextBody : w'.nextBody = w.nextBody

theorem RoundsKeep.refl (w : World σ) : RoundsKeep w w := ⟨rfl, fun _ => id, rfl, rfl, rfl⟩

theorem RoundsKeep.trans {first second third : World σ} (left : RoundsKeep first second)
    (right : RoundsKeep second third) : RoundsKeep first third where
  sequence := right.sequence.trans left.sequence
  bodies b member := left.bodies b (right.bodies b member)
  impl := right.impl.trans left.impl
  states := right.states.trans left.states
  nextBody := right.nextBody.trans left.nextBody

private theorem RoundsKeep.of_checked {grabTracked : Bool} {b : BodyId}
    (bodies : w'.bodies = (w.checkExpired grabTracked b).bodies)
    (nextBody : w'.nextBody = (w.checkExpired grabTracked b).nextBody)
    (owned : w'.owned = w.owned) (impl : w'.heap.impl = w.heap.impl)
    (states : w'.heap.states = w.heap.states)
    (part : ∀ c ∈ w'.currentBodies, c ∈ w.currentBodies)
    (values : w'.currentBodies.filter w'.live = w.currentBodies.filter w'.live) :
    RoundsKeep w w' where
  sequence := by
    have expired : w'.expired = (w.checkExpired grabTracked b).expired :=
      funext fun p => by simp only [World.expired, owned, checkExpired_owned]
    have live : ∀ c, w'.live c = w.live c := by
      intro c
      rw [← checkExpired_live (w := w) grabTracked b c]
      simp only [World.live, slotExpired, bodies, expired]
    apply liveConnections_congr
    · have same : w'.live = w.live := funext live
      rw [← same]
      exact values
    · exact live
    · intro c now
      rw [← checkExpired_liveConnection grabTracked b now]
      simp only [liveConnection, keyOf, bodies]
  bodies := part
  impl := impl
  states := states
  nextBody := nextBody.trans (checkExpired_ages grabTracked b).nextBody

private theorem round_owned {it it' : Iterator} {i i' count count' : Nat}
    {grabTracked grabTracked' : Bool} {after after' : AfterCleanup σ} {b : BodyId}
    (critical : w.critical = some (.cleanupConnections it i count grabTracked after))
    {heap : Heap σ}
    (result : w' = ((w.checkExpired grabTracked b).setHeap heap).enter
      (.cleanupConnections it' i' count' grabTracked' after')) : w'.owned = w.owned := by
  obtain ⟨store, same⟩ := checkExpired_store w grabTracked b
  rw [result, same]
  funext o
  simp only [owned, lockedObject, enter, setHeap, critical]

/-- What one round of a cleanup does that goes on after it. -/
inductive Round (w : World σ) (impl : SignalImpl) (it : Iterator) (i count : Nat)
    (grabTracked : Bool) (after : AfterCleanup σ) (b : BodyId) : World σ → Prop
  | erase (list : GroupedList σ.Group BodyId) (next : Iterator)
      (dead : ((w.checkExpired grabTracked b).bodies b).connected = false)
      (erased : list.list = (w.heap.connectionBodies impl).list.erase it) :
      Round w impl it i count grabTracked after b
        (((w.checkExpired grabTracked b).setHeap (w.heap.setConnectionBodies impl list)).enter
          (.cleanupConnections next (i + 1) count grabTracked after))
  | skip (alive : ((w.checkExpired grabTracked b).bodies b).connected = true) :
      Round w impl it i count grabTracked after b
        ((w.checkExpired grabTracked b).enter
          (.cleanupConnections ((w.heap.connectionBodies impl).list.next it) (i + 1) count
            grabTracked after))

theorem Round.list {impl : SignalImpl} {it : Iterator} {i count : Nat} {grabTracked : Bool}
    {after : AfterCleanup σ} {b : BodyId}
    (round : Round w impl it i count grabTracked after b w') :
    (w'.heap.connectionBodies impl).list =
      if ((w.checkExpired grabTracked b).bodies b).connected then
        (w.heap.connectionBodies impl).list
      else (w.heap.connectionBodies impl).list.erase it := by
  cases round with
  | erase list next dead erased =>
      rw [dead, ← erased]
      simp only [enter, setHeap, Heap.setConnectionBodies, Heap.connectionBodies,
        Function.update_self]
      rfl
  | skip alive =>
      rw [if_pos alive]
      simp only [enter, checkExpired_heap]

theorem section_round {it : Iterator} {i count : Nat} {grabTracked : Bool}
    {after : AfterCleanup σ}
    (critical : w.critical = some (.cleanupConnections it i count grabTracked after))
    (stepped : w.step .section = some w') (sound : w'.fault = none)
    (sweeping : w'.sweeping = true) :
    ∃ impl b, w.heap.impl = some impl ∧
      (it ≠ (w.heap.connectionBodies impl).list.past ∧ (count = 0 ∨ i < count)) ∧
      (w.heap.connectionBodies impl).list.value? it = some b ∧
      Round w impl it i count grabTracked after b w' := by
  rw [step_sweeping (step_effect stepped).1 critical, Option.some.injEq] at stepped
  unfold cleanupStep at stepped
  cases present : w.heap.impl with
  | none =>
      simp only [present] at stepped
      subst stepped
      cases sound
  | some impl =>
      simp only [present] at stepped
      split at stepped
      · rename_i more
        split at stepped
        · subst stepped
          cases sound
        · rename_i b here
          refine ⟨impl, b, rfl, more, here, ?_⟩
          split at stepped
          · rename_i dead
            split at stepped
            · subst stepped
              cases sound
            · rename_i list next erased
              rw [← stepped]
              exact .erase list next dead (GroupedList.erase_some erased).1
          · rename_i alive
            rw [← stepped]
            exact .skip (by simpa using alive)
      · rw [← stepped, sweeping_of_free (finishCleanup_critical w impl it after)] at sweeping
        cases sweeping

theorem section_keeps {it : Iterator} {i count : Nat} {grabTracked : Bool}
    {after : AfterCleanup σ}
    (critical : w.critical = some (.cleanupConnections it i count grabTracked after))
    (stepped : w.step .section = some w') (sound : w'.fault = none)
    (sweeping : w'.sweeping = true) :
    RoundsKeep w w' ∧ ∃ it', w'.critical =
      some (.cleanupConnections it' (i + 1) count grabTracked after) := by
  have effect := (step_effect stepped).2
  obtain ⟨impl, b, present, more, here, round⟩ := section_round critical stepped sound sweeping
  have values : w'.currentBodies.filter w'.live = w.currentBodies.filter w'.live := by
    refine effect.listEffect.filter_live ?_ fun _ arguments connects => ?_
    · apply effect.change.heap.present (by simp)
      rw [present]
      exact Option.some_ne_none impl
    · obtain ⟨_, _, _, _, impl', critical', present', finished⟩ := connects
      cases critical.symm.trans critical'
      cases present.symm.trans present'
      exact finished more
  cases round with
  | erase list next dead erased =>
      refine ⟨.of_checked rfl rfl (round_owned critical rfl) rfl rfl ?_ values, next, rfl⟩
      intro c member
      have kept : c ∈ list.list.values := by
        simpa only [currentBodies, enter, setHeap, Heap.setConnectionBodies, present,
          Heap.connectionBodies, Function.update_self] using member
      rw [erased] at kept
      rw [currentBodies_of_present present]
      exact (List.filter_sublist.map Prod.snd).subset kept
  | skip alive =>
      have heap : (w.checkExpired grabTracked b).heap = w.heap :=
        checkExpired_heap w grabTracked b
      refine ⟨.of_checked rfl rfl (round_owned critical rfl) ?_ ?_ ?_ values, _, rfl⟩
      · exact congrArg Heap.impl heap
      · exact congrArg Heap.states heap
      · intro c member
        simpa only [currentBodies, enter, heap] using member

/-- A cleanup goes on or lets go of the mutex. -/
private theorem section_next {it : Iterator} {i count : Nat} {grabTracked : Bool}
    {after : AfterCleanup σ}
    (critical : w.critical = some (.cleanupConnections it i count grabTracked after))
    (stepped : w.step .section = some w') : w'.critical = none ∨ w'.sweeping = true := by
  have running : w.sweeping = true := by simp only [sweeping, critical]
  rw [step_sweeping (step_effect stepped).1 critical, Option.some.injEq] at stepped
  subst stepped
  unfold cleanupStep
  split
  · exact .inr running
  · dsimp only
    split
    · split
      · exact .inr running
      · split
        · split
          · right
            simp only [sweeping, fail, checkExpired_critical, critical]
          · exact .inr rfl
        · exact .inr rfl
    · exact .inl (finishCleanup_critical w _ it after)

private theorem run_sections_free {rounds : Nat} (free : w.critical = none)
    (ran : Runs.run World.step w (List.replicate rounds .section) = some w') :
    w'.critical = none := by
  cases rounds with
  | zero =>
      cases ran
      exact free
  | succ rounds =>
      obtain ⟨next, stepped, _⟩ := Runs.run_cons ran
      have sound := (step_effect stepped).1
      simp [World.step, sound, sectionStep, free] at stepped

theorem rounds_keep {rounds : Nat} {it : Iterator} {i count : Nat} {grabTracked : Bool}
    {after : AfterCleanup σ}
    (critical : w.critical = some (.cleanupConnections it i count grabTracked after))
    (ran : Runs.run World.step w (List.replicate rounds .section) = some w')
    (sound : w'.fault = none) (sweeping : w'.sweeping = true) :
    RoundsKeep w w' ∧ ∃ it', w'.critical =
      some (.cleanupConnections it' (i + rounds) count grabTracked after) := by
  induction rounds generalizing w it i with
  | zero =>
      cases ran
      exact ⟨.refl _, it, critical⟩
  | succ rounds ih =>
      obtain ⟨next, stepped, ranRest⟩ := Runs.run_cons ran
      have going : next.sweeping = true := by
        rcases section_next critical stepped with free | going
        · rw [sweeping_of_free (run_sections_free free ranRest)] at sweeping
          cases sweeping
        · exact going
      obtain ⟨first, it', critical'⟩ :=
        section_keeps critical stepped (sound_of_run ranRest sound) going
      obtain ⟨rest, it'', critical''⟩ := ih critical' ranRest
      refine ⟨first.trans rest, it'', ?_⟩
      rw [critical'', Nat.add_assoc, Nat.add_comm 1 rounds]

/-! ### A call up to its exception -/

theorem enter_owned {heap : Heap σ} {it : Iterator} {i count : Nat} {grabTracked : Bool}
    {after : AfterCleanup σ} (free : w.critical = none) :
    ((w.setHeap heap).enter (.cleanupConnections it i count grabTracked after)).owned =
      w.owned := by
  funext o
  unfold owned lockedObject
  rw [free]
  rfl

/-- How a connect begins. -/
inductive ConnectStarts (w : World σ) (arguments : ConnectArguments σ) (impl : SignalImpl) :
    World σ → Prop
  | unique (it : Iterator) (alone : w.unique impl.sharedState = true)
      (position : it =
        if impl.garbageCollectorIt = (w.heap.connectionBodies impl).past then
          (w.heap.connectionBodies impl).begin else impl.garbageCollectorIt) :
      ConnectStarts w arguments impl
        (w.enter (.cleanupConnections it 0 2 true (.connect arguments)))
  | copied (shared : w.unique impl.sharedState = false) :
      ConnectStarts w arguments impl ((w.setHeap (w.heap.copyConnectionBodies impl)).enter
        (.cleanupConnections
          ((w.heap.copyConnectionBodies impl).lists w.heap.nextList).list.begin
          0 0 true (.connect arguments)))

theorem connect_starts {arguments : ConnectArguments σ}
    (stepped : w.step (.connect arguments) = some w') :
    w.critical = none ∧
      ∃ impl, w.heap.impl = some impl ∧ ConnectStarts w arguments impl w' := by
  have sound := (step_effect stepped).1
  simp only [World.step, sound, Option.isSome_none, Bool.false_eq_true, if_false] at stepped
  obtain ⟨impl, locked, rfl⟩ := Option.map_eq_some_iff.mp stepped
  obtain ⟨free, present⟩ := lockImpl_some locked
  refine ⟨free, impl, present, ?_⟩
  unfold nolockForceUniqueConnectionList
  split
  · rename_i shared
    exact .copied shared
  · rename_i unique
    exact .unique _ (by simpa using unique) rfl

/-- The call has the mutex and this many rounds of its cleanup behind it. -/
structure MidCall (w : World σ) (impl : SignalImpl) (arguments : ConnectArguments σ)
    (rounds : Nat) (impl' : SignalImpl) (it : Iterator) (count : Nat) (w' : World σ) : Prop where
  sequence : w'.liveConnections = w.liveConnections
  bodies : ∀ b ∈ w'.currentBodies, b ∈ w.currentBodies
  nextBody : w'.nextBody = w.nextBody
  critical : w'.critical =
    some (.cleanupConnections it rounds count true (.connect arguments))
  present : w'.heap.impl = some impl'
  position : impl'.garbageCollectorIt = impl.garbageCollectorIt
  origin : w.unique impl.sharedState = true ∧ count = 2 ∧ impl' = impl ∨
    w.unique impl.sharedState = false ∧
      (w'.heap.states impl'.sharedState).connectionBodies = w.heap.nextList

theorem ConnectStarts.midCall {arguments : ConnectArguments σ} {impl : SignalImpl}
    (starts : ConnectStarts w arguments impl w') (free : w.critical = none)
    (present : w.heap.impl = some impl) :
    ∃ impl' it count, MidCall w impl arguments 0 impl' it count w' := by
  cases starts with
  | unique it alone position =>
      refine ⟨impl, it, 2, ?_, fun b => id, rfl, rfl, present, rfl, .inl ⟨alone, rfl, rfl⟩⟩
      exact liveConnections_of_same rfl rfl (enter_owned free)
  | copied shared =>
      have values : ((w.setHeap (w.heap.copyConnectionBodies impl)).enter
          (.cleanupConnections
            ((w.heap.copyConnectionBodies impl).lists w.heap.nextList).list.begin
            0 0 true (.connect arguments))).currentBodies = w.currentBodies := by
        rw [currentBodies_of_present present]
        simp only [currentBodies, enter, setHeap, Heap.copyConnectionBodies, Heap.connectionBodies,
          Function.update_self]
        rfl
      refine ⟨_, _, 0, ?_, fun b member => ?_, rfl, rfl, rfl, rfl, .inr ⟨shared, ?_⟩⟩
      · exact liveConnections_of_same values rfl (enter_owned free)
      · rwa [values] at member
      · simp only [enter, setHeap, Heap.copyConnectionBodies, Function.update_self]

/-- The rounds are taken without a fault, and the cleanup still runs. -/
theorem midCall {arguments : ConnectArguments σ} {rounds : Nat}
    (ran : Runs.run World.step w (.connect arguments :: List.replicate rounds .section) = some w')
    (sound : w'.fault = none) (sweeping : w'.sweeping = true) :
    w.critical = none ∧ ∃ impl impl' it count, w.heap.impl = some impl ∧
      MidCall w impl arguments rounds impl' it count w' := by
  obtain ⟨start, stepped, ranRest⟩ := Runs.run_cons ran
  obtain ⟨free, impl, present, starts⟩ := connect_starts stepped
  obtain ⟨impl', it, count, began⟩ := starts.midCall free present
  obtain ⟨kept, it', critical⟩ := rounds_keep began.critical ranRest sound sweeping
  refine ⟨free, impl, impl', it', count, present, ?_⟩
  exact {
    sequence := kept.sequence.trans began.sequence
    bodies := fun b member => began.bodies b (kept.bodies b member)
    nextBody := kept.nextBody.trans began.nextBody
    critical := by rw [critical, Nat.zero_add]
    present := kept.impl.trans began.present
    position := began.position
    origin := by
      rw [kept.states]
      exact began.origin }

/-! ### The saved position -/

/-- A copy of the list leaves the position behind. -/
theorem MidCall.left_behind {arguments : ConnectArguments σ} {rounds count : Nat}
    {impl impl' : SignalImpl} {it : Iterator}
    (mid : MidCall w impl arguments rounds impl' it count w') (upheld : w.Upheld compare)
    (upheld' : w'.Upheld compare) (free : w.critical = none) (present : w.heap.impl = some impl)
    (shared : w.unique impl.sharedState = false) :
    ¬ (w'.heap.connectionBodies impl').list.Valid impl'.garbageCollectorIt := by
  intro valid
  have old := (upheld.current.saved (sweeping_of_free free) impl present).owner
  have new := valid.owner
  rw [mid.position, old] at new
  have name : (w.heap.connectionBodies impl).list.name =
      (w.heap.states impl.sharedState).connectionBodies := upheld.sharing.heap.names _
  have name' : (w'.heap.connectionBodies impl').list.name =
      (w'.heap.states impl'.sharedState).connectionBodies := upheld'.sharing.heap.names _
  have copied : (w'.heap.states impl'.sharedState).connectionBodies = w.heap.nextList := by
    rcases mid.origin with ⟨alone, _⟩ | ⟨_, copied⟩
    · rw [shared] at alone
      cases alone
    · exact copied
  have below := upheld.sharing.heap.lists _ (upheld.sharing.heap.impl impl present)
  rw [name, name', copied] at new
  exact Nat.ne_of_lt below new

/-- The first round examines the saved position, and erases it if nothing lives there. -/
theorem first_round_valid {arguments : ConnectArguments σ} {impl : SignalImpl} {start : World σ}
    (free : w.critical = none) (present : w.heap.impl = some impl)
    (alone : w.unique impl.sharedState = true) (starts : ConnectStarts w arguments impl start)
    (stepped : start.step .section = some w') (sound : w'.fault = none)
    (sweeping : w'.sweeping = true) :
    (w'.heap.connectionBodies impl).list.Valid impl.garbageCollectorIt ↔
      impl.garbageCollectorIt = (w.heap.connectionBodies impl).list.past ∨
        ((w.heap.connectionBodies impl).list.value? impl.garbageCollectorIt).any w.live = true := by
  cases starts with
  | copied shared =>
      rw [alone] at shared
      cases shared
  | unique it alone position =>
      obtain ⟨impl', b, present', more, here, round⟩ := section_round rfl stepped sound sweeping
      cases present.symm.trans present'
      have same : ∀ c, (w.enter (.cleanupConnections it 0 2 true (.connect arguments))).live c =
          w.live c := live_of_same rfl (enter_owned free)
      have connected := checkExpired_connected
        (w.enter (.cleanupConnections it 0 2 true (.connect arguments))) b
      rw [same b] at connected
      have list := round.list
      rw [connected] at list
      by_cases atEnd : impl.garbageCollectorIt = (w.heap.connectionBodies impl).list.past
      · refine ⟨fun _ => .inl atEnd, fun _ => .inl ?_⟩
        rw [atEnd, list]
        split <;> rfl
      · have standing : it = impl.garbageCollectorIt := position.trans (if_neg atEnd)
        subst standing
        have here' : (w.heap.connectionBodies impl).list.value? impl.garbageCollectorIt = some b :=
          here
        rw [here', Option.any_some, or_iff_right atEnd, list]
        cases now : w.live b with
        | true => exact ⟨fun _ => rfl, fun _ => .inr ⟨b, here'⟩⟩
        | false =>
            refine ⟨fun valid => ?_, fun impossible => by cases impossible⟩
            exact absurd valid (not_valid_erase atEnd)

/-- In a round the saved position still counts exactly if the throw is harmless. -/
theorem MidCall.valid_iff {arguments : ConnectArguments σ} {rounds count : Nat}
    {impl impl' : SignalImpl} {it : Iterator}
    (mid : MidCall w impl arguments rounds impl' it count w') (upheld : w.Upheld compare)
    (upheld' : w'.Upheld compare) (present : w.heap.impl = some impl)
    (ran : Runs.run World.step w (.connect arguments :: List.replicate rounds .section) = some w')
    (sound : w'.fault = none) (more : count = 0 ∨ rounds < count) {site : ThrowSite}
    (round : site = .addTrash ∨ site = .eraseCompare) :
    (w'.heap.connectionBodies impl').list.Valid impl'.garbageCollectorIt ↔
      w.harmless rounds site = true := by
  obtain ⟨start, stepped, ranRest⟩ := Runs.run_cons ran
  obtain ⟨free, other, present', starts⟩ := connect_starts stepped
  cases present.symm.trans present'
  have sweeping : w'.sweeping = true := by simp only [World.sweeping, mid.critical]
  have condition : w.harmless rounds site = (w.unique impl.sharedState &&
      (rounds = 0 || impl.garbageCollectorIt = (w.heap.connectionBodies impl).list.past ||
        ((w.heap.connectionBodies impl).list.value? impl.garbageCollectorIt).any w.live)) := by
    rcases round with rfl | rfl <;> simp only [harmless, present, Option.any_some]
  rw [condition]
  rcases mid.origin with ⟨alone, two, rfl⟩ | ⟨shared, _⟩
  · rw [alone, Bool.true_and]
    have few : rounds = 0 ∨ rounds = 1 := by omega
    rcases few with rfl | rfl
    · cases starts with
      | copied shared =>
          rw [alone] at shared
          cases shared
      | unique it alone position =>
          cases ranRest
          refine ⟨fun _ => rfl, fun _ => ?_⟩
          exact upheld.current.saved (sweeping_of_free free) impl' present
    · obtain ⟨next, steppedNext, ranNone⟩ := Runs.run_cons ranRest
      cases ranNone
      rw [first_round_valid free present alone starts steppedNext sound sweeping]
      simp
  · rw [shared, Bool.false_and]
    refine ⟨fun valid => ?_, fun impossible => by cases impossible⟩
    exact absurd valid (mid.left_behind upheld upheld' free present shared)

end World

end Signals2
