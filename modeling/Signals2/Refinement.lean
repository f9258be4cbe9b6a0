/-
The signal refines an ordered sequence of live connections.  The abstraction is
what is live in the list that `_shared_state` points to; every step changes it by
the abstract events that the step emits.  When dead connections are swept, copied
or left alone makes no difference.
-/

import Signals2.LiveConnections
import Signals2.Orderly

namespace Signals2

open LinkedLists OrderedInsertion

variable {σ : SignalTemplate}

namespace World

variable {w w' : World σ} {a : Action σ} {compare : σ.Group → σ.Group → Bool}

/-! ### Abstraction -/

def liveConnection (w : World σ) (b : BodyId) : LiveConnection σ :=
  { body := b
    groupKey := w.keyOf b
    trackedObjects := (w.bodies b).trackedObjects }

/-- The bodies in the list that `_shared_state` points to. -/
def currentBodies (w : World σ) : List BodyId :=
  match w.heap.impl with
  | none => []
  | some impl => (w.heap.connectionBodies impl).list.values

def liveConnections (w : World σ) : List (LiveConnection σ) :=
  (w.currentBodies.filter w.live).map w.liveConnection

/-! ### What a step means for the sequence -/

/-- The section that has the mutex is about to insert its new connection. -/
def connectEvents (w : World σ) : Action σ → List (LiveEvent σ)
  | .section =>
      match w.critical, w.heap.impl with
      | some (.cleanupConnections it i count _ (.connect arguments)), some impl =>
          if it ≠ (w.heap.connectionBodies impl).list.past ∧ (count = 0 ∨ i < count) then []
          else if arguments.slot.trackedObjects.any w.expired then []
          else
            [.connect
              { body := w.nextBody
                groupKey := groupKeyOf arguments
                trackedObjects := arguments.slot.trackedObjects }
              arguments.position]
      | _, _ => []
  | _ => []

/-- The bodies that the step disconnects, other than for an expired object. -/
def disconnects (w : World σ) : Action σ → List BodyId
  | .disconnect b => if w.bodyAlive b then [b] else []
  | .slotThrows i true =>
      match w.invocations[i]? with
      | none => []
      | some inv => (w.bodyAt inv.localState inv.iter).toList
  | .advance t =>
      match w.traversals[t]? with
      | none => []
      | some tr =>
          if tr.it = tr.endIt then []
          else (w.bodyAt tr.localState tr.it).toList.filter (w.targets tr.kind)
  | .section =>
      match w.critical with
      | some (.contains _ b _ pimpl locked) => if locked = some pimpl then [b] else []
      | _ => []
  | _ => []

/-- The objects whose last owner goes. -/
def released (w w' : World σ) (o : ObjectId) : Bool := w.owned o && !w'.owned o

def liveEvents (w : World σ) (a : Action σ) : List (LiveEvent σ) :=
  match w.step a with
  | none => []
  | some w' =>
      w.connectEvents a ++ (w.disconnects a).map .disconnect ++ [.expire (w.released w')]

/-! ### Disconnections -/

theorem connected_of_ended {u : World σ} {b other : BodyId} {todo : List VoidWeakPtr}
    {locked : Option (Option ObjectId)} (ended : Ended w b todo locked u)
    (unexpired : ∀ p ∈ todo, w.expired p = true → other ≠ b)
    (connected : (w.bodies other).connected = true) : (u.bodies other).connected = true := by
  cases ended with
  | grabbed locked => exact connected
  | expired p rest expired =>
      have apart := unexpired p List.mem_cons_self expired
      rw [← connected]
      exact BodyStore.nolockDisconnect_other apart

theorem connected_of_tested {u : World σ} {b other : BodyId} {condition : Prop}
    [Decidable condition] (tested : u = if condition then w.nolockDisconnect b else w)
    (apart : condition → other ≠ b) (connected : (w.bodies other).connected = true) :
    (u.bodies other).connected = true := by
  subst tested
  split
  · rename_i holds
    rw [← connected]
    exact BodyStore.nolockDisconnect_other (apart holds)
  · exact connected

theorem connected_of_checkExpired {b other : BodyId} {grabTracked : Bool}
    (unexpired : w.slotExpired other = false) (connected : (w.bodies other).connected = true) :
    ((w.checkExpired grabTracked b).bodies other).connected = true := by
  unfold checkExpired disconnectExpiredSlot
  split
  · split
    · exact connected
    · split
      · rename_i expired
        rw [← connected]
        refine BodyStore.nolockDisconnect_other fun same => ?_
        rw [same, expired] at unexpired
        cases unexpired
      · exact connected
  · exact connected

/-- A connection that no step event names is lost only when an object has expired. -/
theorem Effect.connected_after (effect : Effect w a w') (todo : w.GrabTodo)
    {b : BodyId} (below : b < w.nextBody) {slot : Slot σ}
    (held : (w.bodies b).slot = some slot) (unexpired : w.slotExpired b = false)
    (connected : (w.bodies b).connected = true) (unnamed : b ∉ w.disconnects a) :
    (w'.bodies b).connected = true := by
  have unhurt : ∀ {client : GrabClient} {other : BodyId} {rest : List VoidWeakPtr}
      {locked : Option (Option ObjectId)},
      w.critical = some (.grabTrackedObjects client other rest locked) →
      ∀ p ∈ rest, w.expired p = true → b ≠ other := by
    rintro client other rest locked critical p member gone rfl
    have tracked := todo client b rest locked critical slot held p member
    have owned := unexpired_of_slot held unexpired tracked
    rw [expired_iff.mp gone] at owned
    cases owned
  cases effect with
  | keep client other p rest locked critical =>
      unfold insertLocked
      split
      · split <;> exact connected
      · exact connected
  | answer other rest locked u critical ended =>
      have after := connected_of_ended ended (unhurt critical) connected
      exact after
  | count t other rest locked u tr critical ended found =>
      have after := connected_of_ended ended (unhurt critical) connected
      exact after
  | commit i other locked inv critical found alive unblocked =>
      rw [← connected]
      exact BodyStore.setActiveSlot_connected inv.activeSlot (some other) b
  | skip i other rest locked u inv critical ended found blocked =>
      have after := connected_of_ended ended (unhurt critical) connected
      exact after
  | lost client other rest locked u critical ended missing =>
      have after := connected_of_ended ended (unhurt critical) connected
      exact after
  | contains t other weakPimpl pimpl locked u tr critical tested found =>
      have after := connected_of_tested tested (fun same => by
        simp only [disconnects, critical, if_pos same, List.mem_singleton] at unnamed
        exact unnamed) connected
      exact after
  | containsLost t other weakPimpl pimpl locked u critical tested missing =>
      have after := connected_of_tested tested (fun same => by
        simp only [disconnects, critical, if_pos same, List.mem_singleton] at unnamed
        exact unnamed) connected
      exact after
  | sweepErase it i count grabTracked after impl other list next critical present inside more here
      dead erased => exact connected_of_checkExpired unexpired connected
  | sweepSkip it i count grabTracked after impl other critical present inside more here alive =>
      exact connected_of_checkExpired unexpired connected
  | sweepEnd it i count grabTracked after impl critical present done =>
      unfold finishCleanup
      cases after with
      | connect arguments =>
          rw [← connected]
          exact congrArg ConnectionBody.connected
            (BodyStore.newConnectionBody_old _ _ (Nat.ne_of_lt below))
      | invoke => exact connected
      | forceCleanup k =>
          dsimp only
          split <;> exact connected
  | disconnect other free alive =>
      rw [← connected]
      refine BodyStore.nolockDisconnect_other ?_
      simpa [disconnects, alive] using unnamed
  | throwExpired i inv other free found phase here =>
      rw [← connected]
      refine BodyStore.nolockDisconnect_other ?_
      simpa [disconnects, found, here] using unnamed
  | walkDisconnect t tr other free found inside here targets =>
      rw [← connected]
      refine BodyStore.nolockDisconnect_other ?_
      simpa [disconnects, found, inside, here, targets] using unnamed
  | reachEnd i inv free found phase atEnd callable =>
      rw [← connected]
      exact BodyStore.setActiveSlot_connected inv.activeSlot none b
  | destroyCache i inv free found phase active =>
      rw [← connected]
      exact BodyStore.setActiveSlot_connected inv.activeSlot none b
  | outside w' outside =>
      rw [outside.bodies b]
      exact connected
  | fault u f cause u_eq =>
      rcases u_eq with rfl | ⟨grabTracked, other, rfl⟩
      · exact connected
      · have after : ((w.checkExpired grabTracked other).bodies b).connected = true :=
          connected_of_checkExpired unexpired connected
        exact after
  | _ => exact connected

/-- Only a function object is disconnected without looking at a promotion. -/
theorem functorMatches_functor {argument : SlotArgument σ.Function} {slot : Slot σ}
    (same : functorMatches argument slot = true) :
    ∃ function equal, slot.slotFunction.target = .functor function ∧
      argument = .functor equal ∧ equal function = true := by
  cases target : slot.slotFunction.target with
  | functor function =>
      cases argument with
      | functor equal =>
          have equals : equal function = true := by simpa [functorMatches, target] using same
          exact ⟨function, equal, rfl, rfl, equals⟩
      | signal pimpl => simp [functorMatches, target] at same
  | weakSignal weakPimpl => simp [functorMatches, target] at same

private theorem doDisconnect_disconnects {t : TraversalId} {tr : Traversal σ} {b : BodyId}
    {next : Iterator} {argument : SlotArgument σ.Function} {slot : Slot σ}
    (held : (w.bodies b).slot = some slot) (same : functorMatches argument slot = true) :
    ((w.doDisconnect t tr b next argument).bodies b).connected = false := by
  have gone : ((w.toBodyStore.nolockDisconnect b).bodies b).connected = false :=
    BodyStore.nolockDisconnect_connected b
  obtain ⟨wrapped, equal, target, rfl, equals⟩ := functorMatches_functor same
  unfold doDisconnect
  split
  · rename_i disconnected
    exact disconnected
  · simp only [held]
    cases function : slot.slotFunction with
    | plain inner =>
        rw [function] at target
        cases target
        simp only [equals, if_true]
        exact gone
    | boundExtended inner =>
        rw [function] at target
        cases target
        simp only [equals, if_true]
        exact gone

theorem advance_named {t : TraversalId} {tr : Traversal σ} {b : BodyId}
    (found : w.traversals[t]? = some tr) (named : b ∈ w.disconnects (.advance t)) :
    tr.it ≠ tr.endIt ∧ w.bodyAt tr.localState tr.it = some b ∧
      w.targets tr.kind b = true := by
  simp only [disconnects, found] at named
  split at named
  · cases named
  · rename_i inside
    obtain ⟨standing, targets⟩ := List.mem_filter.mp named
    exact ⟨inside, Option.mem_toList.mp standing, targets⟩

theorem advance_disconnects {t : TraversalId} {tr : Traversal σ} {b : BodyId}
    (found : w.traversals[t]? = some tr) (inside : tr.it ≠ tr.endIt)
    (here : w.bodyAt tr.localState tr.it = some b) (targets : w.targets tr.kind b = true)
    (stepped : w.advance t = some w') : (w'.bodies b).connected = false := by
  have progress : tr.localState ≠ none := by
    intro gone
    rw [gone] at here
    cases here
  have unanswered : tr.answered = false := by
    cases kind : tr.kind with
    | empty => simp [World.targets, kind] at targets
    | _ => simp only [Traversal.answered, kind]
  simp only [advance, found, if_neg progress, inside, unanswered, Bool.false_eq_true, or_self,
    if_false, here] at stepped
  split at stepped
  · contradiction
  · cases kind : tr.kind with
    | disconnectAllSlots =>
        simp only [kind] at stepped
        cases stepped
        exact BodyStore.nolockDisconnect_connected b
    | disconnectGroup group =>
        simp only [kind] at stepped
        cases stepped
        exact BodyStore.nolockDisconnect_connected b
    | doDisconnect argument =>
        simp only [kind, Option.some.injEq] at stepped
        subst stepped
        simp only [kind, World.targets] at targets
        obtain ⟨slot, held, same⟩ := (Option.any_eq_true _ _).mp targets
        exact doDisconnect_disconnects held same
    | numSlots => simp [World.targets, kind] at targets
    | empty => simp [World.targets, kind] at targets

/-- What a step event names is disconnected by the step. -/
theorem disconnected_of_event (stepped : w.step a = some w') {b : BodyId}
    (named : b ∈ w.disconnects a) : (w'.bodies b).connected = false := by
  have sound := (step_effect stepped).1
  cases a with
  | disconnect other =>
      simp only [disconnects] at named
      split at named
      · rename_i alive
        cases List.mem_singleton.mp named
        simp only [World.step, sound, Option.isSome_none, Bool.false_eq_true, if_false,
          World.disconnect, alive, if_true] at stepped
        split at stepped
        · contradiction
        · cases stepped
          exact BodyStore.nolockDisconnect_connected b
      · cases named
  | slotThrows i expiredSlot =>
      cases expiredSlot with
      | false => cases named
      | true =>
          cases found : w.invocations[i]? with
          | none => simp [disconnects, found] at named
          | some inv =>
              have here : w.bodyAt inv.localState inv.iter = some b := by
                simpa [disconnects, found] using named
              simp only [World.step, sound, Option.isSome_none, Bool.false_eq_true, if_false,
                World.slotThrows, found, here, if_true] at stepped
              split at stepped
              · split at stepped
                · contradiction
                · cases stepped
                  exact BodyStore.nolockDisconnect_connected b
              · contradiction
  | advance t =>
      cases found : w.traversals[t]? with
      | none => simp [disconnects, found] at named
      | some tr =>
          obtain ⟨inside, here, targets⟩ := advance_named found named
          have gone : w.advance t = some w' → (w'.bodies b).connected = false :=
            advance_disconnects found inside here targets
          simp only [World.step, sound, Option.isSome_none, Bool.false_eq_true, if_false]
            at stepped
          exact gone stepped
  | «section» =>
      cases critical : w.critical with
      | none => simp [disconnects, critical] at named
      | some entered =>
          cases entered with
          | grabTrackedObjects client other todo locked => simp [disconnects, critical] at named
          | cleanupConnections it i count grabTracked after => simp [disconnects, critical] at named
          | contains t other weakPimpl pimpl locked =>
              simp only [disconnects, critical] at named
              split at named
              · rename_i same
                cases List.mem_singleton.mp named
                simp only [World.step, sound, Option.isSome_none, Bool.false_eq_true, if_false,
                  sectionStep, critical, containsStep, if_pos same, Option.some.injEq] at stepped
                subst stepped
                split <;> exact BodyStore.nolockDisconnect_connected b
              · cases named
  | _ => cases named

theorem live_of_slot {b : BodyId} {slot : Slot σ} (held : (w.bodies b).slot = some slot)
    (connected : (w.bodies b).connected = true)
    (owned : ∀ p ∈ slot.trackedObjects, w.owned p.object = true) : w.live b = true := by
  refine live_iff.mpr ⟨connected, ?_⟩
  rw [slotExpired_of_slot held, List.any_eq_false]
  intro p tracked gone
  have alive := owned p tracked
  rw [expired_iff.mp gone] at alive
  cases alive

theorem unreleased_iff {connection : LiveConnection σ} :
    LiveConnection.unreleased (w.released w') connection = true ↔
      ∀ p ∈ connection.trackedObjects, w.owned p.object = true → w'.owned p.object = true := by
  simp [LiveConnection.unreleased, released]

/-- What is live after a step: what was live, is not disconnected by it and has lost
no tracked object. -/
theorem Orderly.live_after (orderly : w.Orderly compare) (stepped : w.step a = some w')
    {b : BodyId} (below : b < w.nextBody) :
    w'.live b = true ↔ w.live b = true ∧ b ∉ w.disconnects a ∧
      LiveConnection.unreleased (w.released w') (w.liveConnection b) = true := by
  have effect := (step_effect stepped).2
  have isolated := orderly.guarding.isolated
  rw [unreleased_iff]
  constructor
  · intro now
    obtain ⟨before, slot, held, held'⟩ := isolated.live_before effect below now
    refine ⟨before, fun named => ?_, fun p tracked _ => ?_⟩
    · have connected := (live_iff.mp now).1
      rw [disconnected_of_event stepped named] at connected
      cases connected
    · simp only [liveConnection, ConnectionBody.trackedObjects, held'] at tracked
      exact unexpired_of_slot held (live_iff.mp now).2 tracked
  · rintro ⟨before, unnamed, unreleased⟩
    obtain ⟨connected, unexpired⟩ := live_iff.mp before
    obtain ⟨slot, held⟩ := isolated.counted.slot_of_connected connected
    have still := effect.connected_after orderly.todo below held unexpired connected unnamed
    obtain ⟨slot', held'⟩ := (isolated.counted.step effect).slot_of_connected still
    cases held.symm.trans (effect.slot_kept below held')
    refine live_of_slot held' still fun p tracked => ?_
    refine unreleased p ?_ (unexpired_of_slot held unexpired tracked)
    simpa only [liveConnection, ConnectionBody.trackedObjects, held] using tracked

/-- A live connection looks the same before and after a step. -/
theorem Orderly.liveConnection_kept (orderly : w.Orderly compare) (effect : Effect w a w')
    {b : BodyId} (below : b < w.nextBody) (now : w'.live b = true) :
    w'.liveConnection b = w.liveConnection b := by
  obtain ⟨before, slot, held, held'⟩ :=
    orderly.guarding.isolated.live_before effect below now
  simp only [liveConnection, effect.keyOf_kept below, ConnectionBody.trackedObjects, held, held']

/-! ### The list -/

theorem currentBodies_of_present {impl : SignalImpl} (present : w.heap.impl = some impl) :
    w.currentBodies = (w.heap.connectionBodies impl).list.values := by
  simp only [currentBodies, present]

theorem Orderly.below (orderly : w.Orderly compare) : ∀ b ∈ w.currentBodies, b < w.nextBody := by
  intro b member
  obtain ⟨impl, present⟩ := Option.ne_none_iff_exists'.mp orderly.present
  rw [currentBodies_of_present present] at member
  exact orderly.guarding.isolated.listed b ⟨_, member⟩

theorem Orderly.sorted (orderly : w.Orderly compare) (order : StrictWeak compare) :
    Sorted (groupKeyLess compare) w.keyOf w.currentBodies := by
  obtain ⟨impl, present⟩ := Option.ne_none_iff_exists'.mp orderly.present
  rw [currentBodies_of_present present]
  exact List.pairwise_map.mpr ((orderly.current.consistent impl present).sorted order)

/-- The sequence is ordered by group. -/
theorem Orderly.ordered (orderly : w.Orderly compare) (order : StrictWeak compare) :
    LiveConnection.Ordered compare w.liveConnections :=
  List.pairwise_map.mpr ((orderly.sorted order).filter w.live)

/-- Sweeping, copying and everything else but a connect leave what is live in place. -/
theorem ListEffect.filter_live (listEffect : ListEffect w a w') (present' : w'.heap.impl ≠ none)
    (unconnecting : a = .section → ∀ arguments, ¬ w.Connects arguments) :
    w'.currentBodies.filter w'.live = w.currentBodies.filter w'.live := by
  obtain ⟨impl', present'⟩ := Option.ne_none_iff_exists'.mp present'
  rw [currentBodies_of_present present']
  cases listEffect with
  | keep current cleanup =>
      obtain ⟨impl, present, list, _⟩ := current impl' present'
      rw [currentBodies_of_present present, list]
  | start impl it i count grabTracked after free present position heap critical =>
      rw [heap] at present' ⊢
      rw [currentBodies_of_present present']
  | copy impl grabTracked after present heap critical =>
      rw [heap] at present' ⊢
      cases present'
      rw [currentBodies_of_present present]
      simp only [Heap.connectionBodies, Heap.copyConnectionBodies, Function.update_self]
      rfl
  | erase impl it i i' count grabTracked after b list next before present here dead erased heap
      critical =>
      rw [heap] at present' ⊢
      cases present.symm.trans present'
      rw [currentBodies_of_present present]
      simp only [Heap.connectionBodies, Heap.setConnectionBodies, Function.update_self]
      obtain ⟨front, back, whole, rest⟩ := erase_values here
      have notLive : w'.live b = false := by simp [live, dead]
      have whole' : (w.heap.lists (w.heap.states impl'.sharedState).connectionBodies).list.values =
          front ++ b :: back := whole
      rw [(GroupedList.erase_some erased).1, rest, whole', List.filter_append, List.filter_append,
        List.filter_cons_of_neg (by simp [notLive])]
  | skip impl it i i' count grabTracked after b before present here heap critical =>
      rw [heap] at present' ⊢
      rw [currentBodies_of_present present']
  | save impl it i count grabTracked after before present heap critical =>
      rw [heap] at present' ⊢
      cases present'
      rw [currentBodies_of_present present]
      rfl
  | connect impl it i count grabTracked arguments before present heap bodies connects critical =>
      exact absurd connects.2 (unconnecting connects.1 arguments)

/-! ### Steps that do not connect -/

theorem connectEvents_nil
    (unconnecting : a = .section → ∀ arguments, ¬ w.Connects arguments) :
    w.connectEvents a = [] := by
  cases a with
  | «section» =>
      simp only [connectEvents]
      split
      · rename_i critical present
        split
        · rfl
        · rename_i done
          exact absurd ⟨_, _, _, _, _, critical, present, done⟩ (unconnecting rfl _)
      · rfl
  | _ => rfl

/-- The old connections after a step, in their order. -/
theorem Orderly.liveConnections_old (orderly : w.Orderly compare)
    (stepped : w.step a = some w') :
    (w.currentBodies.filter w'.live).map w'.liveConnection =
      (w.liveConnections.filter fun connection =>
        !(w.disconnects a).contains connection.body).filter
          (LiveConnection.unreleased (w.released w')) := by
  have effect := (step_effect stepped).2
  have same : (w.currentBodies.filter w'.live).map w'.liveConnection =
      (w.currentBodies.filter w'.live).map w.liveConnection := by
    refine List.map_congr_left fun b member => ?_
    obtain ⟨inside, now⟩ := List.mem_filter.mp member
    exact orderly.liveConnection_kept effect (orderly.below b inside) now
  have kept : w.currentBodies.filter w'.live = w.currentBodies.filter fun b =>
      w.live b && (!(w.disconnects a).contains b &&
        LiveConnection.unreleased (w.released w') (w.liveConnection b)) := by
    refine List.filter_congr fun b member => ?_
    rw [Bool.eq_iff_iff, orderly.live_after stepped (orderly.below b member)]
    simp
  rw [same, kept, liveConnections, List.filter_filter, List.filter_map, List.filter_filter]
  congr 1
  refine List.filter_congr fun b _ => ?_
  simp only [Function.comp_apply]
  cases w.live b <;> simp [Bool.and_comm, liveConnection]

theorem Orderly.simulates_quiet (orderly : w.Orderly compare) (order : StrictWeak compare)
    (undisturbed : Undisturbed w a) (stepped : w.step a = some w')
    (unconnecting : a = .section → ∀ arguments, ¬ w.Connects arguments) :
    w'.liveConnections = (w.liveEvents a).foldl (LiveConnection.apply compare)
      w.liveConnections := by
  have after := orderly.step order undisturbed stepped
  have effect := (step_effect stepped).2
  rw [liveConnections, effect.listEffect.filter_live after.present unconnecting,
    orderly.liveConnections_old stepped]
  simp only [liveEvents, stepped, connectEvents_nil unconnecting, List.nil_append,
    List.foldl_append, LiveConnection.foldl_disconnect]
  rfl

/-! ### The step that connects -/

theorem Connects.stepped {arguments : ConnectArguments σ} (connects : w.Connects arguments)
    (stepped : w.step .section = some w') :
    ∃ impl it, w.heap.impl = some impl ∧ w.lockedObject = none ∧ w.disconnects .section = [] ∧
      (w.connectEvents .section =
        if arguments.slot.trackedObjects.any w.expired then []
        else [.connect ⟨w.nextBody, groupKeyOf arguments, arguments.slot.trackedObjects⟩
          arguments.position]) ∧
      w' = w.finishCleanup impl it (.connect arguments) := by
  obtain ⟨it, i, count, grabTracked, impl, critical, present, done⟩ := connects
  have sound := (step_effect stepped).1
  refine ⟨impl, it, present, ?_, ?_, ?_, ?_⟩
  · simp only [lockedObject, critical]
  · simp only [disconnects, critical]
  · simp only [connectEvents, critical, present, if_neg done]
  · have finished : ¬ (it ≠ (w.heap.connectionBodies impl).past ∧ (count = 0 ∨ i < count)) := done
    simp only [World.step, sound, Option.isSome_none, Bool.false_eq_true, if_false, sectionStep,
      critical, cleanupStep, present, if_neg finished, Option.some.injEq] at stepped
    exact stepped.symm

theorem finishCleanup_owned {impl : SignalImpl} {it : Iterator} {arguments : ConnectArguments σ}
    (unlocked : w.lockedObject = none) (o : ObjectId) :
    (w.finishCleanup impl it (.connect arguments)).owned o = w.owned o := by
  have after : (w.finishCleanup impl it (.connect arguments)).lockedObject = none := rfl
  simp only [owned, unlocked, after]
  rfl

theorem finishCleanup_bodies {impl : SignalImpl} {it : Iterator}
    {arguments : ConnectArguments σ} :
    (w.finishCleanup impl it (.connect arguments)).bodies w.nextBody =
      .construct arguments.slot (groupKeyOf arguments) :=
  BodyStore.newConnectionBody_new arguments.slot (groupKeyOf arguments)

/-- The new connection has its place among the bodies of the current list. -/
theorem Orderly.finishCleanup_values (orderly : w.Orderly compare) (order : StrictWeak compare)
    {impl : SignalImpl} {it : Iterator} {arguments : ConnectArguments σ}
    (present : w.heap.impl = some impl)
    (kept : ∀ b ∈ w.currentBodies,
      (w.finishCleanup impl it (.connect arguments)).keyOf b = w.keyOf b) :
    (w.finishCleanup impl it (.connect arguments)).currentBodies =
      insertWhere (fun other => LiveConnection.prior compare (groupKeyOf arguments)
        arguments.position ((w.finishCleanup impl it (.connect arguments)).keyOf other))
        w.nextBody w.currentBodies := by
  have rekeyed : (w.heap.connectionBodies impl).Consistent compare
      (w.finishCleanup impl it (.connect arguments)).keyOf := by
    refine (orderly.current.consistent impl present).congr_keys fun node member => ?_
    refine kept node.2 ?_
    rw [currentBodies_of_present present]
    exact List.mem_map_of_mem member
  have keyed : (w.finishCleanup impl it (.connect arguments)).keyOf w.nextBody =
      groupKeyOf arguments := by
    unfold keyOf
    rw [finishCleanup_bodies]
    rfl
  rw [currentBodies_of_present present, ← Consistent.pushConnection_values order rekeyed keyed]
  simp only [currentBodies, finishCleanup, insertConnection, unlock, setHeap,
    Heap.setGarbageCollectorIt, Heap.setConnectionBodies, Heap.connectionBodies,
    Function.update_self]

theorem Orderly.simulates_connect (orderly : w.Orderly compare) (order : StrictWeak compare)
    {arguments : ConnectArguments σ} (connects : w.Connects arguments)
    (stepped : w.step .section = some w') :
    w'.liveConnections = (w.liveEvents .section).foldl (LiveConnection.apply compare)
      w.liveConnections := by
  have effect := (step_effect stepped).2
  obtain ⟨impl, it, present, unlocked, named, events, result⟩ := connects.stepped stepped
  have owned : ∀ o, w'.owned o = w.owned o := by
    rw [result]
    exact finishCleanup_owned unlocked
  have unreleased : ∀ live : List (LiveConnection σ),
      live.filter (LiveConnection.unreleased (w.released w')) = live := fun live =>
    List.filter_eq_self.mpr fun connection _ =>
      unreleased_iff.mpr fun p _ held => (owned p.object).trans held
  have old : (w.currentBodies.filter w'.live).map w'.liveConnection = w.liveConnections := by
    rw [orderly.liveConnections_old stepped, named, unreleased]
    simp
  have kept : ∀ b ∈ w.currentBodies, w'.keyOf b = w.keyOf b := fun b member =>
    effect.keyOf_kept (orderly.below b member)
  have values : w'.currentBodies = insertWhere (fun other => LiveConnection.prior compare
      (groupKeyOf arguments) arguments.position (w'.keyOf other)) w.nextBody w.currentBodies := by
    rw [result] at kept ⊢
    exact orderly.finishCleanup_values order present kept
  have body : w'.bodies w.nextBody = .construct arguments.slot (groupKeyOf arguments) := by
    rw [result]
    exact finishCleanup_bodies
  have new : w'.liveConnection w.nextBody =
      ⟨w.nextBody, groupKeyOf arguments, arguments.slot.trackedObjects⟩ := by
    simp only [liveConnection, keyOf, body]
    rfl
  have alive : w'.live w.nextBody = !arguments.slot.trackedObjects.any w.expired := by
    have same : w'.expired = w.expired := funext fun p => by simp only [expired, owned]
    simp only [live, slotExpired, same, body]
    rfl
  rw [liveConnections, values]
  simp only [liveEvents, stepped, events, named, List.map_nil, List.append_nil, List.foldl_append]
  cases expiredSlot : arguments.slot.trackedObjects.any w.expired with
  | true =>
      rw [filter_insertWhere_dropped _ (by rw [alive, expiredSlot]; rfl), old]
      exact (unreleased w.liveConnections).symm
  | false =>
      have sorted : Sorted (groupKeyLess compare) w'.keyOf w.currentBodies :=
        (orderly.sorted order).imp_of_mem fun earlier later ordered => by
          rw [kept _ earlier, kept _ later]
          exact ordered
      rw [filter_insertWhere (LiveConnection.prior_cut order sorted _ _) _
        (by rw [alive, expiredSlot]; rfl)]
      have moved := map_insertWhere w'.liveConnection (fun other => LiveConnection.prior compare
        (groupKeyOf arguments) arguments.position other.groupKey) w.nextBody
        (w.currentBodies.filter w'.live)
      rw [new, old] at moved
      simp only [Bool.false_eq_true, if_false, List.foldl_cons, List.foldl_nil,
        LiveConnection.apply, unreleased]
      exact moved

/-- One step, one list of abstract events. -/
theorem Orderly.simulates (orderly : w.Orderly compare) (order : StrictWeak compare)
    (undisturbed : Undisturbed w a) (stepped : w.step a = some w') :
    w'.liveConnections = (w.liveEvents a).foldl (LiveConnection.apply compare)
      w.liveConnections := by
  by_cases connecting : a = .section ∧ ∃ arguments, w.Connects arguments
  · obtain ⟨rfl, arguments, connects⟩ := connecting
    exact orderly.simulates_connect order connects stepped
  · refine orderly.simulates_quiet order undisturbed stepped ?_
    intro acting arguments connects
    exact connecting ⟨acting, arguments, connects⟩

/-! ### What the traversals achieve -/

/-- A traversal disconnects only what it is to disconnect, and at its end nothing of
that is live in the list it walked. -/
structure Disconnecting (compare : σ.Group → σ.Group → Bool) (w : World σ) (t : TraversalId)
    (tr : Traversal σ) : Prop where
  sound : ∀ b ∈ w.disconnects (.advance t), w.live b = true → w.Wanted compare tr.kind b
  complete : ∀ s, tr.localState = some s → tr.it = tr.endIt →
    ∀ b ∈ (w.listOf s).list.values, w.live b = true → ¬ w.Wanted compare tr.kind b

theorem Walking.disconnecting {t : TraversalId} {tr : Traversal σ} (walking : w.Walking compare)
    (found : w.traversals[t]? = some tr) : w.Disconnecting compare t tr where
  sound b named now := by
    obtain ⟨inside, here, targets⟩ := advance_named found named
    cases kind : tr.kind with
    | disconnectAllSlots => trivial
    | disconnectGroup group =>
        cases state : tr.localState with
        | none =>
            rw [state] at here
            cases here
        | some s =>
            obtain ⟨before, rest, after, walked⟩ :=
              walking.underway tr (List.mem_of_getElem? found) s state
            obtain ⟨node, later, rfl, here', _⟩ := walked.here state inside
            cases here.symm.trans here'
            exact walked.group group kind node List.mem_cons_self
    | doDisconnect argument =>
        simp only [World.targets, kind] at targets
        obtain ⟨slot, held, same⟩ := (Option.any_eq_true _ _).mp targets
        obtain ⟨_, equal, _, rfl, _⟩ := functorMatches_functor same
        exact ⟨slot, held, same⟩
    | numSlots => simp [World.targets, kind] at targets
    | empty => simp [World.targets, kind] at targets
  complete s state done b member := by
    obtain ⟨before, rest, after, walked⟩ :=
      walking.underway tr (List.mem_of_getElem? found) s state
    have none := walked.ended done
    subst none
    obtain ⟨node, inside, rfl⟩ := List.mem_map.mp member
    rw [walked.nodes, List.nil_append] at inside
    rcases List.mem_append.mp inside with passed | spared
    · exact walked.passed node passed
    · exact walked.spared node spared

/-- So does the section in which a traversal compares signals. -/
theorem Orderly.contains_sound (orderly : w.Orderly compare) {b : BodyId}
    (named : b ∈ w.disconnects .section) (now : w.live b = true) :
    ∃ (t : TraversalId) (tr : Traversal σ),
      w.traversals[t]? = some tr ∧ w.Wanted compare tr.kind b := by
  have walked := orderly.walking.criticalWalked
  simp only [disconnects] at named
  split at named
  · rename_i t other weakPimpl pimpl locked critical
    split at named
    · rename_i same
      cases List.mem_singleton.mp named
      simp only [SectionWalked, critical] at walked
      obtain ⟨tr, found, kind, _, _, wraps, origin⟩ := walked
      refine ⟨t, tr, found, ?_⟩
      rw [kind]
      obtain ⟨slot, held⟩ :=
        orderly.guarding.isolated.counted.slot_of_connected (live_iff.mp now).1
      refine ⟨slot, held, ?_⟩
      rcases origin with promoted | ⟨none, _⟩
      · cases same.symm.trans promoted
        exact wraps slot held
      · cases same.symm.trans none
    · cases named
  · cases named

/-- Traversals keep their kind. -/
def KindsKept (w w' : World σ) : Prop :=
  ∀ (t : TraversalId) (tr : Traversal σ), w.traversals[t]? = some tr →
    ∃ tr' : Traversal σ, w'.traversals[t]? = some tr' ∧ tr'.kind = tr.kind

theorem Stride.kind {t : TraversalId} {tr tr' : Traversal σ} (how : Stride w t tr w' tr') :
    tr'.kind = tr.kind := by
  cases how with
  | walk walk => cases walk <;> rfl
  | disconnect b inside here gone => rfl
  | count b todo locked critical count => rfl
  | contains b weakPimpl pimpl locked critical tested => rfl

theorem Effect.kindsKept (effect : Effect w a w') : KindsKept w w' := by
  intro t tr found
  have bound := (List.getElem?_eq_some_iff.mp found).1
  cases effect.traversals with
  | same traversals =>
      rw [traversals]
      exact ⟨tr, found, rfl⟩
  | stride t' old new found' how traversals =>
      rw [traversals]
      by_cases same : t' = t
      · subst same
        cases found.symm.trans found'
        exact ⟨new, List.getElem?_set_self bound, how.kind⟩
      · exact ⟨tr, (List.getElem?_set_ne same).trans found, rfl⟩
  | join impl kind present traversals lists =>
      rw [traversals]
      exact ⟨tr, (List.getElem?_append_left bound).trans found, rfl⟩

theorem Orderly.run_kept {final : World σ} {actions : List (Action σ)}
    (orderly : w.Orderly compare) (order : StrictWeak compare)
    (guarded : Runs.Guarded World.step Undisturbed w actions)
    (ran : Runs.run World.step w actions = some final) :
    Kept .traversal listView w final ∧ KindsKept w final := by
  have keeps : ∀ (s : World σ) (a : Action σ) (next : World σ), s.Orderly compare →
      Undisturbed s a → s.step a = some next → next.Orderly compare :=
    fun _ _ _ before undisturbed stepped => before.step order undisturbed stepped
  constructor
  · refine Runs.run_relation (Kept.refl .traversal listView) (fun _ _ _ => Kept.trans) keeps
      ?_ orderly guarded ran
    intro s a next before undisturbed stepped
    exact before.apart.kept_step before.guarding.isolated.sharing (step_effect stepped).2.change
  · refine Runs.run_relation (fun _ t tr found => ⟨tr, found, rfl⟩) ?_ keeps ?_ orderly guarded ran
    · intro first second third left right t tr found
      obtain ⟨middle, found', same⟩ := left t tr found
      obtain ⟨last, found'', same'⟩ := right t middle found'
      exact ⟨last, found'', same'.trans same⟩
    · intro s a next before undisturbed stepped
      exact (step_effect stepped).2.kindsKept

theorem Kept.traversal {t : TraversalId} {tr tr' : Traversal σ} {s : StateId}
    (kept : Kept .traversal listView w w') (found : w.traversals[t]? = some tr)
    (state : tr.localState = some s) (found' : w'.traversals[t]? = some tr')
    (progress : tr'.localState ≠ none) :
    tr'.localState = some s ∧ w'.listOf s = w.listOf s := by
  have here : (w.readers .traversal)[t]? = some (some s) := by simp [readers, found, state]
  obtain ⟨y, there, origin⟩ := kept.reader t (some s) here
  have same : tr'.localState = y := by simpa [readers, found'] using there
  have still : tr'.localState = some s := by
    rcases origin with held | gone
    · rw [same, held]
    · exact absurd (same.trans gone) progress
  rw [same.symm.trans still] at there
  exact ⟨still, congrArg Prod.snd (kept.same t s here there)⟩

/-- A whole operation: what was live when it started and is to be disconnected is
not live when it comes to the end of its walk. -/
theorem Orderly.traversal_achieves {final : World σ} {kind : TraversalKind σ}
    {rest : List (Action σ)} {tr : Traversal σ} (orderly : w.Orderly compare)
    (order : StrictWeak compare)
    (guarded : Runs.Guarded World.step Undisturbed w (.traverse kind :: rest))
    (ran : Runs.run World.step w (.traverse kind :: rest) = some final)
    (found : final.traversals[w.traversals.length]? = some tr)
    (progress : tr.localState ≠ none) (done : tr.it = tr.endIt) {b : BodyId}
    (member : b ∈ w.currentBodies) : final.live b = true → ¬ final.Wanted compare kind b := by
  obtain ⟨next, stepped, ranRest⟩ := Runs.run_cons ran
  have started := orderly.step order guarded.1 stepped
  have guardedRest := guarded.2 next stepped
  have ended := started.run order guardedRest ranRest
  obtain ⟨kept, kinds⟩ := started.run_kept order guardedRest ranRest
  have began : w.traverse kind = some next := by
    simpa only [World.step, orderly.sound, Option.isSome_none, Bool.false_eq_true, if_false]
      using stepped
  obtain ⟨impl, locked, rfl⟩ := Option.map_eq_some_iff.mp began
  obtain ⟨free, present⟩ := lockImpl_some locked
  have found' : (w.traversals ++ [w.newTraversal impl kind])[w.traversals.length]? =
      some (w.newTraversal impl kind) := by simp
  obtain ⟨state, same⟩ := kept.traversal found' rfl found progress
  obtain ⟨last, found'', sameKind⟩ := kinds _ _ found'
  cases found.symm.trans found''
  have inside : b ∈ (final.listOf impl.sharedState).list.values := by
    rw [same]
    rwa [currentBodies_of_present present] at member
  have settled := (ended.walking.disconnecting found).complete _ state done b inside
  rw [sameKind] at settled
  exact settled

/-! ### The refinement -/

/-- Between the two states, with `later` run in between, the signal is the ordered
sequence of live connections that the events of the run make of it. -/
structure Refines (compare : σ.Group → σ.Group → Bool) (w w' : World σ)
    (later : List (Action σ)) : Prop where
  sequence : w'.liveConnections =
    (Runs.outputs World.step liveEvents w later).foldl (LiveConnection.apply compare)
      w.liveConnections
  ordered : LiveConnection.Ordered compare w'.liveConnections
  placed : ∀ connection position, ∃ before after,
    w'.liveConnections = before ++ after ∧
      LiveConnection.apply compare w'.liveConnections (.connect connection position) =
        before ++ connection :: after ∧
      (∀ other ∈ before,
        LiveConnection.prior compare connection.groupKey position other.groupKey = true) ∧
      ∀ other ∈ after,
        LiveConnection.prior compare connection.groupKey position other.groupKey = false
  disconnecting : ∀ t tr, w'.traversals[t]? = some tr → w'.Disconnecting compare t tr
  comparing : ∀ b ∈ w'.disconnects .section, w'.live b = true →
    ∃ (t : TraversalId) (tr : Traversal σ),
      w'.traversals[t]? = some tr ∧ w'.Wanted compare tr.kind b
  achieved : ∀ kind rest, later = .traverse kind :: rest →
    ∀ tr, w'.traversals[w.traversals.length]? = some tr →
      tr.localState ≠ none → tr.it = tr.endIt →
      ∀ b ∈ w.currentBodies, w'.live b = true → ¬ w'.Wanted compare kind b
  sound : w'.fault = none

theorem Orderly.refines {later : List (Action σ)} (orderly : w.Orderly compare)
    (order : StrictWeak compare) (guarded : Runs.Guarded World.step Undisturbed w later)
    (ran : Runs.run World.step w later = some w') : Refines compare w w' later := by
  have final := orderly.run order guarded ran
  exact {
    sequence := by
      have keeps : ∀ (s : World σ) (a : Action σ) (next : World σ), s.Orderly compare →
          Undisturbed s a → s.step a = some next → next.Orderly compare :=
        fun _ _ _ before undisturbed stepped => before.step order undisturbed stepped
      refine Runs.run_simulation keeps ?_ orderly guarded ran
      intro s a next before undisturbed stepped
      exact before.simulates order undisturbed stepped
    ordered := final.ordered order
    placed := fun connection position => (final.ordered order).apply_connect order
    disconnecting := fun t tr found => final.walking.disconnecting found
    comparing := fun b named now => final.contains_sound named now
    achieved := by
      rintro kind rest rfl tr found progress done b member
      exact orderly.traversal_achieves order guarded ran found progress done member
    sound := final.sound }

/-- Every undisturbed run of a signal refines the ordered sequence of live
connections, if the comparison it was given orders the groups as the
default-constructed one does. -/
theorem live_connections_refine {combiner : σ.Combiner} {owners : ObjectId → Nat}
    {defaultCompare groupCompare : σ.Group → σ.Group → Bool}
    {earlier later : List (Action σ)} (order : StrictWeak groupCompare)
    (agree : ∀ x y, defaultCompare x y = groupCompare x y)
    (guarded : Runs.Guarded World.step Undisturbed
      (World.construct combiner defaultCompare groupCompare owners) (earlier ++ later))
    (before : Runs.run World.step (World.construct combiner defaultCompare groupCompare owners)
      earlier = some w)
    (ran : Runs.run World.step w later = some w') :
    (World.construct combiner defaultCompare groupCompare owners).liveConnections = [] ∧
      Refines groupCompare w w' later := by
  have same : defaultCompare = groupCompare := funext fun x => funext fun y => agree x y
  subst same
  obtain ⟨guardedEarlier, guardedLater⟩ := (Runs.guarded_append before).mp guarded
  have start := (construct_orderly combiner defaultCompare owners).run order guardedEarlier before
  exact ⟨rfl, start.refines order guardedLater ran⟩

end World

/-- Three connects, the second before the first and the last at the front of its
group; then the second is disconnected and swept by the next connect. -/
def connectGroups : List (Action natSignal) :=
  [connectGroup 2 10 .atBack, .section, connectGroup 1 11 .atBack, .section, .section,
    connectGroup 2 12 .atFront, .section, .section, .section, .disconnect 1,
    connectBack 13, .section, .section, .section]

theorem connectGroups_refines :
    ∃ w : World natSignal, Runs.run World.step natStart connectGroups = some w ∧
      w.liveConnections.map LiveConnection.body = [2, 0, 3] ∧
      World.Refines (fun a b : Nat => decide (a < b)) natStart w connectGroups := by
  have ends : (Runs.run World.step natStart connectGroups).map
      (fun w => w.liveConnections.map LiveConnection.body) = some [2, 0, 3] := by
    decide +kernel
  obtain ⟨w, ran, live⟩ := Option.map_eq_some_iff.mp ends
  have guarded : Runs.Guarded World.step World.Undisturbed natStart ([] ++ connectGroups) := by
    apply World.Undisturbed.of_forall
    · simp [connectGroups, connectGroup, connectBack]
    · simp [connectGroups, connectGroup, connectBack]
  have before : Runs.run World.step natStart [] = some natStart := rfl
  exact ⟨w, ran, live,
    (World.live_connections_refine natLess_strictWeak (fun _ _ => rfl) guarded before ran).2⟩

end Signals2
