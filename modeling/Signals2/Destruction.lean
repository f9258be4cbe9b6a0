/-
Destruction of the signal while invocations are in progress.  Their iterators never
need the `signal_impl`.  Two things do: the janitor of an invocation that has met
more disconnected than connected slots, and a cleanup that is under way.
-/

import Signals2.CallSequence
import Signals2.ConnectedAnswers

namespace Signals2

open LinkedLists

variable {σ : SignalTemplate}

namespace World

variable {w w' : World σ} {a : Action σ} {i : InvocationId}

/-- After the destruction no janitor has connections to sweep out, and no cleanup is
still under way. -/
structure Spared (w : World σ) (a : Action σ) : Prop where
  janitor : ∀ i inv, a = .janitor i → w.invocations[i]? = some inv → w.critical = none →
    w.heap.impl = none → ¬ inv.connectedSlotCount < inv.disconnectedSlotCount
  cleanup : a = .section → w.heap.impl = none → w.sweeping = false

/-- Evaluates `Spared`, whoever holds the mutex. -/
def spared (w : World σ) (a : Action σ) : Bool :=
  w.heap.impl.isSome ||
    match a with
    | .section => !w.sweeping
    | .janitor i =>
        w.invocations[i]?.all fun inv =>
          !decide (inv.connectedSlotCount < inv.disconnectedSlotCount)
    | _ => true

theorem Spared.of_check (holds : w.spared a = true) : Spared w a := by
  constructor
  · rintro i inv rfl found _ gone
    simpa [World.spared, gone, found] using holds
  · rintro rfl gone
    simpa [World.spared, gone] using holds

/-- A step touches the destroyed `signal_impl` exactly if it is not spared. -/
theorem spared_iff (counted : w.Counted) (stepped : w.step a = some w') :
    w'.fault ≠ some .destroyedImpl ↔ Spared w a := by
  obtain ⟨sound, effect⟩ := step_effect stepped
  constructor
  · intro safe
    constructor
    · rintro i inv rfl found free gone many
      refine safe ?_
      simp only [World.step, sound, World.janitor, found, free, gone, many, Option.isSome_none,
        Bool.false_eq_true, if_false, if_true] at stepped
      split at stepped
      · cases stepped
        rfl
      · cases stepped
    · rintro rfl gone
      unfold sweeping
      split
      · rename_i it k count grabTracked after critical
        simp only [World.step, sound, sectionStep, critical, cleanupStep, gone, Option.isSome_none,
          Bool.false_eq_true, if_false, Option.some.injEq] at stepped
        subst stepped
        exact absurd rfl safe
      · rfl
  · intro spared raised
    cases counted.cause sound effect raised with
    | sweepDestroyed it k count grabTracked after critical gone =>
        have idle := spared.cleanup rfl gone
        simp only [sweeping, critical, Bool.true_eq_false] at idle
    | janitorDestroyed i inv found phase many gone =>
        refine spared.janitor i inv rfl found ?_ gone many
        by_contra taken
        obtain ⟨entered, critical⟩ := Option.ne_none_iff_exists'.mp taken
        simp [World.step, sound, World.janitor, found, phase, many, critical] at stepped

/-! ### What connections say afterwards -/

/-- A call of `connected` that begins now answers no, whatever happens meanwhile. -/
def Refuses (w : World σ) (b : BodyId) : Prop :=
  ∀ later w' newer answer, Runs.run World.step w (.connected b :: later) = some w' →
    w'.returned = newer ++ (b, answer) :: w.returned → answer = false

/-- Signal and invocations are gone, but a walk through the list, or an operation of a
connection object that has promoted the body, is still under way. -/
def KeptByOthers (w : World σ) (b : BodyId) : Prop :=
  (∃ s, some s ∈ w.readers .traversal ∧ b ∈ (w.listOf s).list.values) ∨
    Leftover.body b ∈ w.trash

/-- The signal is gone and all its invocations have ended. -/
structure AllEnded (w : World σ) : Prop where
  gone : w.heap.impl = none
  invocations : ∀ inv ∈ w.invocations, inv.localState = none

/-- What is then still under way keeps no connection that is connected and unexpired; a
state in which the mutex is locked, or a check has failed, does not count. -/
def LetGo (w : World σ) : Prop :=
  w.AllEnded → w.fault = none → w.critical = none → ∀ b, w.KeptByOthers b → w.live b = false

theorem AllEnded.alive_iff {b : BodyId} (ended : w.AllEnded) (free : w.critical = none) :
    w.bodyAlive b = true ↔ w.KeptByOthers b := by
  rw [bodyAlive_iff]
  constructor
  · rintro (⟨s, live, member⟩ | kept | left)
    · left
      refine ⟨s, ?_, member⟩
      rcases live with current | ⟨kind, reads⟩
      · simp [World.shared, ended.gone] at current
      · cases kind with
        | invocation =>
            obtain ⟨inv, inside, state⟩ := List.mem_map.mp reads
            rw [ended.invocations inv inside] at state
            cases state
        | traversal => exact reads
    · simp [sectionBody, free] at kept
    · exact .inr left
  · rintro (⟨s, reads, member⟩ | left)
    · exact .inl ⟨s, .inr ⟨.traversal, reads⟩, member⟩
    · exact .inr (.inr left)

theorem expired_enter {entered : Section σ} (unlocked : w.lockedObject = none)
    (unlocked' : (w.enter entered).lockedObject = none) (p : VoidWeakPtr) :
    (w.enter entered).expired p = w.expired p := by
  rw [expired, expired, owned, owned, unlocked, unlocked']
  rfl

/-- With all tracked objects alive, the check of a connected body comes to an end with yes. -/
theorem grab_yes {b : BodyId} {todo : List VoidWeakPtr} (sound : w.fault = none)
    (critical : w.critical = some (.grabTrackedObjects .connected b todo none))
    (alive : ∀ p ∈ todo, w.expired p = false) (connected : (w.bodies b).connected = true) :
    ∃ later w', Runs.run World.step w later = some w' ∧
      w'.returned = (b, true) :: w.returned := by
  induction todo generalizing w with
  | nil =>
      have answers : w.step .section = some (w.finishGrab .connected b) := by
        simp [World.step, sound, sectionStep, critical, grabStep]
      refine ⟨[.section], w.finishGrab .connected b, ?_, ?_⟩
      · simp only [Runs.run, answers]
      · simp only [finishGrab, unlock, connected]
  | cons p rest ih =>
      have here := alive p List.mem_cons_self
      have promotes : w.step .section = some (w.enter
          (.grabTrackedObjects .connected b (p :: rest) (some (w.lockWeakPtr p)))) := by
        simp [World.step, sound, sectionStep, critical, grabStep, here]
      have discards : (w.enter (.grabTrackedObjects .connected b (p :: rest)
          (some (w.lockWeakPtr p)))).step .section =
            some (w.enter (.grabTrackedObjects .connected b rest none)) := by
        simp [World.step, sectionStep, grabStep, insertLocked, enter, sound]
      have unlocked : w.lockedObject = none := by simp [lockedObject, critical]
      have still : ∀ q ∈ rest,
          (w.enter (.grabTrackedObjects .connected b rest none)).expired q = false := by
        intro q member
        rw [expired_enter unlocked rfl]
        exact alive q (List.mem_cons_of_mem p member)
      obtain ⟨later, w', ran, returned⟩ :=
        ih (w := w.enter (.grabTrackedObjects .connected b rest none)) sound rfl still connected
      refine ⟨.section :: .section :: later, w', ?_, returned⟩
      simp only [Runs.run, promotes, discards, ran]

theorem answers_yes {b : BodyId} (sound : w.fault = none) (free : w.critical = none)
    (alive : w.bodyAlive b = true) (live : w.live b = true) :
    ∃ later w', Runs.run World.step w (.connected b :: later) = some w' ∧
      w'.returned = (b, true) :: w.returned := by
  obtain ⟨connected, unexpired⟩ := Bool.and_eq_true_iff.mp live
  have begins : w.step (.connected b) = some (w.enterGrab .connected b) := by
    simp [World.step, sound, World.connected, free, alive]
  have unlocked : w.lockedObject = none := by simp [lockedObject, free]
  have still : ∀ p ∈ (w.bodies b).trackedObjects,
      (w.enterGrab .connected b).expired p = false := by
    have each : ∀ p ∈ (w.bodies b).trackedObjects, w.expired p = false := by
      simpa [slotExpired] using unexpired
    intro p member
    rw [enterGrab, expired_enter unlocked rfl]
    exact each p member
  obtain ⟨later, w', ran, returned⟩ :=
    grab_yes (w := w.enterGrab .connected b) sound rfl still connected
  refine ⟨later, w', ?_, returned⟩
  simp only [Runs.run, begins, ran]

/-- Answers that have been given stay. -/
theorem returned_stays {actions : List (Action σ)}
    (ran : Runs.run World.step w actions = some w') :
    ∃ newer, w'.returned = newer ++ w.returned := by
  induction actions generalizing w with
  | nil => exact ⟨[], by rw [← Option.some.inj ran]; rfl⟩
  | cons a rest ih =>
      obtain ⟨next, stepped, ranRest⟩ := Runs.run_cons ran
      obtain ⟨newer, later⟩ := ih ranRest
      cases step_answering stepped with
      | quiet same => exact ⟨newer, later.trans (by rw [same])⟩
      | refuse b gone =>
          refine ⟨newer ++ [(b, false)], ?_⟩
          rw [later, List.append_assoc]
          rfl
      | answer b todo locked u critical ended =>
          refine ⟨newer ++ [(b, (u.bodies b).connected)], ?_⟩
          rw [later, List.append_assoc]
          obtain ⟨store, rfl⟩ := ended.store
          rfl

theorem answer_unique {before : List (BodyId × Bool)} {newer newer' : List (BodyId × Bool)}
    {answer answer' : BodyId × Bool}
    (same : newer ++ answer :: before = newer' ++ answer' :: before) : answer = answer' := by
  have both : (newer ++ [answer]) ++ before = (newer' ++ [answer']) ++ before := by
    simpa using same
  exact List.singleton_inj.mp (List.append_inj' (List.append_cancel_right both) rfl).2

/-- Once the signal is gone and the invocations have ended, a connection says no unless
something else keeps it and it is connected and unexpired. -/
theorem AllEnded.refuses_iff {b : BodyId} (ended : w.AllEnded) (made : w.Made)
    (counted : w.Counted) (sound : w.fault = none) (free : w.critical = none)
    (below : b < w.nextBody) :
    w.Refuses b ↔ (w.KeptByOthers b → w.live b = false) := by
  constructor
  · intro refuses kept
    by_contra unexpired
    have alive := (ended.alive_iff free).mpr kept
    obtain ⟨later, w', ran, returned⟩ := answers_yes sound free alive (by simpa using unexpired)
    cases refuses later w' [] true ran returned
  · intro dead later w' newer answer ran returned
    obtain ⟨next, stepped, ranLater⟩ := Runs.run_cons ran
    cases alive : w.bodyAlive b with
    | false =>
        obtain ⟨since, stays⟩ := returned_stays ranLater
        simp only [World.step, sound, World.connected, free, alive, Option.isSome_none,
          Bool.false_eq_true, if_false, Option.some.injEq] at stepped
        subst stepped
        cases answer_unique (stays.symm.trans returned)
        rfl
    | true =>
        have gone := dead ((ended.alive_iff free).mp alive)
        have asking := (made.asks counted stepped).run below ranLater
        cases asking.asked with
        | pending todo locked critical same =>
            have length := congrArg List.length (same.symm.trans returned)
            simp only [List.length_append, List.length_cons] at length
            omega
        | answered given newer' same live =>
            cases answer_unique (same.symm.trans returned)
            cases answer with
            | false => rfl
            | true =>
                rw [live rfl] at gone
                cases gone

/-- A step of an invocation never fails, if it is spared. -/
theorem Guarding.own_step (guarding : w.Guarding) (own : a.invocation = some i)
    (spared : Spared w a) (stepped : w.step a = some w') : w'.fault = none := by
  obtain ⟨sound, effect⟩ := step_effect stepped
  cases raised : w'.fault with
  | none => rfl
  | some f =>
      have cause := guarding.isolated.counted.cause sound effect raised
      rcases guarding.cause_origin cause with rfl | ⟨j, rfl, rfl⟩ | ⟨t, rfl⟩
      · cases own
      · exact absurd raised ((spared_iff guarding.isolated.counted stepped).mpr spared)
      · cases own

/-- What the destruction of the signal leaves intact in a run from `start` to `w`. -/
structure Survived (start : World σ) (actions : List (Action σ)) (w : World σ) : Prop where
  untouched : w.fault ≠ some .destroyedImpl
  -- with plain use, the slots called are those that can be called, in order
  called : ∀ i inv, w.invocations[i]? = some inv →
    Runs.Guarded World.step (PlainUse i) start actions → ∃ snapshot later,
      Runs.outputs World.step (callEvents i) start actions = .start snapshot :: later ∧
        CallingSequence snapshot
          (decisions (Runs.outputs World.step (callEvents i) start actions))
          (calls (Runs.outputs World.step (callEvents i) start actions)) (¬ Working inv)
  -- an invocation can go on, and its steps do not fail
  continues : ∀ i inv, w.invocations[i]? = some inv → w.fault = none → w.critical = none →
    inv.phase ≠ .running → inv.phase ≠ .done →
      ∃ a : Action σ, a.invocation = some i ∧ PlainUse i w a ∧ (w.step a).isSome
  succeeds : ∀ i a w', a.invocation = some i → Spared w a → w.step a = some w' → w'.fault = none
  -- when all invocations have ended, no connection says that it is connected
  refused : w.AllEnded → ∀ b < w.nextBody, w.Refuses b

theorem Survived.letGo {start : World σ} {actions : List (Action σ)}
    (survived : Survived start actions w) (made : w.Made) (counted : w.Counted) : w.LetGo := by
  intro ended sound free b kept
  have below := made.of_alive ((ended.alive_iff free).mpr kept)
  exact (ended.refuses_iff made counted sound free below).mp (survived.refused ended b below) kept

theorem LetGo.refused (letGo : w.LetGo) (made : w.Made) (counted : w.Counted)
    (ended : w.AllEnded) (b : BodyId) (below : b < w.nextBody) : w.Refuses b := by
  intro later w' newer answer ran
  obtain ⟨next, stepped, _⟩ := Runs.run_cons ran
  have sound := (step_effect stepped).1
  have free : w.critical = none := by
    by_contra taken
    obtain ⟨entered, critical⟩ := Option.ne_none_iff_exists'.mp taken
    simp [World.step, sound, World.connected, critical] at stepped
  have refuses := (ended.refuses_iff made counted sound free below).mpr (letGo ended sound free b)
  exact refuses later w' newer answer ran

/-- A run in which the signal may be destroyed at any moment leaves everything intact
exactly if all its steps are spared and nothing else keeps connections in the end. -/
theorem survives_destruction {combiner : σ.Combiner}
    {defaultCompare groupCompare : σ.Group → σ.Group → Bool} {owners : ObjectId → Nat}
    {actions : List (Action σ)}
    (guarded : Runs.Guarded World.step CombinerSetAlone
      (World.construct combiner defaultCompare groupCompare owners) actions)
    (ran : Runs.run World.step (World.construct combiner defaultCompare groupCompare owners)
      actions = some w) :
    Survived (World.construct combiner defaultCompare groupCompare owners) actions w ↔
      Runs.Guarded World.step Spared
        (World.construct combiner defaultCompare groupCompare owners) actions ∧ w.LetGo := by
  have keeps : ∀ (s : World σ) (a : Action σ) (next : World σ), s.Guarding →
      CombinerSetAlone s a → s.step a = some next → next.Guarding :=
    fun _ _ _ guarding alone stepped => guarding.step alone stepped
  have start := construct_guarding combiner defaultCompare groupCompare owners
  have stops : ∀ (s : World σ) (a : Action σ), ¬ s.fault ≠ some .destroyedImpl →
      s.step a = none := by
    intro s a touched
    have raised : s.fault = some .destroyedImpl := by simpa using touched
    simp [World.step, raised]
  have steps : ∀ (s : World σ) (a : Action σ) (next : World σ), s.Guarding →
      s.step a = some next → (next.fault ≠ some .destroyedImpl ↔ Spared s a) :=
    fun _ _ _ guarding stepped => spared_iff guarding.isolated.counted stepped
  have sound : (World.construct combiner defaultCompare groupCompare owners).fault ≠
      some .destroyedImpl := fun raised => by cases raised
  have exactly := Runs.final_iff_guarded keeps steps stops start sound guarded ran
  have final : w.Guarding := Runs.run_invariant keeps start guarded ran
  have made : w.Made := (construct_made combiner defaultCompare groupCompare owners).run ran
  have counted := final.isolated.counted
  constructor
  · intro survived
    exact ⟨exactly.mp survived.untouched, survived.letGo made counted⟩
  · rintro ⟨spared, letGo⟩
    have unread := guarded.mono fun _ _ alone => CombinerSetAlone.unread alone
    exact {
      untouched := exactly.mpr spared
      called := fun i inv found used => by
        have chronicle := (construct_chronicle combiner defaultCompare groupCompare owners).run
          unread (fun _ : True => used) ran
        obtain ⟨snapshot, visits, told⟩ := chronicle.told inv found
        exact ⟨snapshot, _, told.events, told.sequence⟩
      continues := fun i inv found sound free idle progress =>
        invocation_enabled sound free found idle progress
      succeeds := fun i a w' own spared stepped => final.own_step own spared stepped
      refused := letGo.refused made counted }

end World

/-- Three connections, and an invocation whose first slot destroys the signal. -/
def destroyFromSlot : List (Action natSignal) :=
  [connectBack 10, .section, connectBack 11, .section, .section, connectBack 12, .section,
    .section, .section, .invoke, .section, .section, .lockNext 0, .section, .dereference 0,
    .destroy, .slotReturns 0 5, .increment 0, .lockNext 0, .section, .dereference 0,
    .slotReturns 0 6, .increment 0, .lockNext 0, .section, .dereference 0, .slotReturns 0 7,
    .increment 0, .reachEnd 0, .finish 0, .janitor 0, .destroyCache 0, .releaseState 0]

theorem destroyFromSlot_survives :
    ∃ w : World natSignal, Runs.run World.step natStart destroyFromSlot = some w ∧
      w.AllEnded ∧ w.nextBody = 3 ∧ World.Survived natStart destroyFromSlot w := by
  have ends : (Runs.run World.step natStart destroyFromSlot).map
      (fun w => (w.heap.impl.isNone, w.invocations.map Invocation.localState,
        w.traversals.length, w.trash, w.nextBody)) = some (true, [none], 0, [], 3) := by
    decide +kernel
  obtain ⟨w, ran, facts⟩ := Option.map_eq_some_iff.mp ends
  obtain ⟨gone, states, walks, trash, made⟩ : w.heap.impl.isNone = true ∧
      w.invocations.map Invocation.localState = [none] ∧ w.traversals.length = 0 ∧
      w.trash = [] ∧ w.nextBody = 3 := by simpa only [Prod.mk.injEq] using facts
  have alone : Runs.Guarded World.step World.CombinerSetAlone natStart destroyFromSlot :=
    World.CombinerSetAlone.of_forall (by simp [destroyFromSlot, connectBack])
  have spared : Runs.Guarded World.step World.Spared natStart destroyFromSlot :=
    .of_checked (fun _ _ => World.Spared.of_check) (by decide +kernel)
  have ended : w.AllEnded := by
    refine ⟨Option.isNone_iff_eq_none.mp gone, fun inv member => ?_⟩
    have state := List.mem_map_of_mem (f := Invocation.localState) member
    rw [states] at state
    exact List.mem_singleton.mp state
  have letGo : w.LetGo := by
    rintro _ _ _ b (⟨s, reads, _⟩ | left)
    · rw [World.readers, List.eq_nil_of_length_eq_zero walks] at reads
      cases reads
    · rw [trash] at left
      cases left
  exact ⟨w, ran, ended, made, (World.survives_destruction alone ran).mpr ⟨spared, letGo⟩⟩

/-- The first slot also disconnects the two others, which the invocation therefore
counts when it goes on. -/
def disconnectAndDestroy : List (Action natSignal) :=
  [connectBack 10, .section, connectBack 11, .section, .section, connectBack 12, .section,
    .section, .section, .invoke, .section, .section, .lockNext 0, .section, .dereference 0,
    .disconnect 1, .disconnect 2, .destroy, .slotReturns 0 5, .increment 0, .lockNext 0,
    .section, .lockNext 0, .section, .reachEnd 0, .finish 0, .janitor 0]

/-- Its janitor then asks the destroyed `signal_impl` to clean up. -/
theorem janitor_touches_destroyed :
    ∃ w : World natSignal, Runs.run World.step natStart disconnectAndDestroy = some w ∧
      w.fault = some .destroyedImpl ∧ ¬ World.Survived natStart disconnectAndDestroy w := by
  have ends : (Runs.run World.step natStart disconnectAndDestroy).map (fun w => w.fault) =
      some (some .destroyedImpl) := by decide +kernel
  obtain ⟨w, ran, raised⟩ := Option.map_eq_some_iff.mp ends
  exact ⟨w, ran, raised, fun survived => survived.untouched raised⟩

end Signals2
