/-
Every operation comes to its end.  While nothing new begins, whoever takes the steps,
only as many can be taken as the effort allows, and they never get stuck: some step is
possible until nothing is in progress and every reference has been released.
-/

import Signals2.CallHistory
import Signals2.Efforts

namespace Signals2

open LinkedLists OrderedInsertion IndexedLists

variable {σ : SignalTemplate}

/-- The slot function that runs returns or throws. -/
def Action.leavesSlot : Action σ → Bool
  | .slotReturns _ _ | .slotThrows _ _ => true
  | _ => false

namespace World

variable {w w' u : World σ} {a : Action σ} {i : InvocationId} {inv : Invocation σ}
  {compare : σ.Group → σ.Group → Bool}

/-! ### Rest -/

/-- Nothing is in progress, and nothing is held that waits to be released: the mutex is
free, invocations and traversals are over, only connected slots exist, and tracked objects
are owned from outside alone. -/
structure AtRest (w : World σ) : Prop where
  unlocked : w.critical = none
  returned : ∀ inv ∈ w.invocations, inv.phase = .done
  walked : ∀ tr ∈ w.traversals, tr.localState = none
  released : w.trash = []
  slots : ∀ b, (w.bodies b).slot.isSome = true ↔ (w.bodies b).connected = true
  owned : ∀ x, w.owned x = true ↔ 0 < w.owners x

/-- What every undisturbed run keeps, and the end of all operations needs. -/
structure Settling (compare : σ.Group → σ.Group → Bool) (w : World σ) : Prop where
  steady : w.Steady compare
  present : w.heap.impl ≠ none

theorem construct_settling (combiner : σ.Combiner) (compare : σ.Group → σ.Group → Bool)
    (owners : ObjectId → Nat) :
    (World.construct combiner compare compare owners).Settling compare where
  steady := construct_steady combiner compare owners
  present gone := by cases gone

theorem Settling.step (settling : w.Settling compare) (order : StrictWeak compare)
    (undisturbed : Undisturbed w a) (stepped : w.step a = some w') : w'.Settling compare where
  steady := settling.steady.step order ⟨undisturbed.2, spared_of_present settling.present⟩ stepped
  present := (step_effect stepped).2.change.heap.present undisturbed.1 settling.present

theorem carriesOn_undisturbed (carries : w.carriesOn a = true) : Undisturbed w a := by
  constructor
  · rintro rfl
    cases carries
  · rintro combiner rfl
    cases carries

/-- With the mutex free, invocations and traversals over and nothing left to release,
the slots and the tracked objects are as nobody had asked for them. -/
theorem Steady.atRest (steady : w.Steady compare) (free : w.critical = none)
    (returned : ∀ inv ∈ w.invocations, inv.phase = .done)
    (walked : ∀ tr ∈ w.traversals, tr.localState = none) (released : w.trash = []) :
    w.AtRest := by
  have isolated := steady.guarding.isolated
  refine ⟨free, returned, walked, released, fun b => ?_, fun x => ?_⟩
  · have balanced := isolated.counted.balanced b
    have idle : (w.invocations.map Invocation.activeSlot).count (some b) = 0 := by
      refine List.count_eq_zero.mpr fun member => ?_
      obtain ⟨inv, inside, active⟩ := List.mem_map.mp member
      have quit := (isolated.positioned.placed inv inside).quit (.inr (returned inv inside))
      rw [quit] at active
      cases active
    rw [balanced.slot, balanced.refcount, show w.activeSlots.count (some b) = 0 from idle]
    cases (w.bodies b).connected <;> simp
  · have unpromoted : w.lockedObject = none := by simp only [lockedObject, free]
    have unheld : ∀ inv ∈ w.invocations, some x ∉ inv.trackedPtrs := by
      intro inv inside
      rw [steady.emptied.pointers inv inside (returned inv inside)]
      exact List.not_mem_nil
    simp only [owned, unpromoted, Bool.or_eq_true, decide_eq_true_eq, List.any_eq_true,
      List.contains_iff_mem, beq_iff_eq, reduceCtorEq, or_false]
    refine ⟨?_, .inl⟩
    rintro (held | ⟨inv, inside, member⟩)
    · exact held
    · exact absurd member (unheld inv inside)

/-! ### No state but rest is stuck -/

/-- Some steps that carry on lower the effort. -/
def Eases (w : World σ) : Prop :=
  ∃ actions next, Runs.Guarded World.step (fun w a => w.carriesOn a = true) w actions ∧
    Runs.run World.step w actions = some next ∧ next.effort < w.effort

/-- One step that carries on, and is no exception, is enough. -/
theorem Settling.eases (settling : w.Settling compare) (order : StrictWeak compare)
    (carries : w.carriesOn a = true) (free : credit a = 0) (enabled : (w.step a).isSome = true) :
    w.Eases := by
  obtain ⟨w', stepped⟩ := Option.isSome_iff_exists.mp enabled
  have sound := (settling.step order (carriesOn_undisturbed carries) stepped).steady.sound
  have paid := settling.steady.pays carries sound stepped
  refine ⟨[a], w', ⟨carries, fun _ _ => trivial⟩, ?_, by omega⟩
  simp only [Runs.run, stepped]

/-- A slot that runs can throw, and its combiner let the exception through. -/
theorem Settling.eases_running (settling : w.Settling compare)
    (found : w.invocations[i]? = some inv) (running : inv.phase = .running) : w.Eases := by
  have sound := settling.steady.sound
  have thrown : w.step (.slotThrows i false) =
      some (w.setInvocation i { inv with phase := .ready }) := by
    simp [World.step, sound, World.slotThrows, found, running]
  have below := (List.getElem?_eq_some_iff.mp found).1
  have here : (w.setInvocation i { inv with phase := .ready }).invocations[i]? =
      some { inv with phase := .ready } := List.getElem?_set_self below
  have finished : (w.setInvocation i { inv with phase := .ready }).step (.finish i) =
      some (w.setInvocation i { inv with phase := .janitor }) := by
    have twice : (w.setInvocation i { inv with phase := .ready }).setInvocation i
        { inv with phase := .janitor } = w.setInvocation i { inv with phase := .janitor } := by
      simp only [setInvocation, List.set_set]
    rw [← twice]
    simp only [World.step, World.finish, here, if_true]
    simp [setInvocation, sound]
  refine ⟨[.slotThrows i false, .finish i], w.setInvocation i { inv with phase := .janitor }, ?_,
    ?_, ?_⟩
  · exact ⟨rfl, fun _ _ => ⟨rfl, fun _ _ => trivial⟩⟩
  · simp only [Runs.run, thrown, finished]
  · have eased : Eased w (w.setInvocation i { inv with phase := .janitor }) :=
      ⟨fun _ _ _ => rfl, fun _ _ => Nat.le_refl _⟩
    have invocations := eased.invocations_set found rfl fun _ _ => rfl
    have traversals := eased.traversals_same rfl fun _ _ _ => rfl
    have same := eased.section_same rfl rfl
    have load : (w.setInvocation i { inv with phase := .janitor }).load = w.load := rfl
    have less : (w.setInvocation i { inv with phase := .janitor }).invocationEffort
        { inv with phase := .janitor } (w.engages i) < w.invocationEffort inv (w.engages i) := by
      simp only [invocationEffort, running]
      have size : (w.setInvocation i { inv with phase := .janitor }).listSize inv.localState =
          w.listSize inv.localState := rfl
      split <;> omega
    change _ + (w.setInvocation i { inv with phase := .janitor }).invocationEffort _
      (w.engages i) ≥ _ at invocations
    unfold effort
    omega

theorem section_enabled (sound : w.fault = none) (held : w.critical ≠ none) :
    (w.step .section).isSome = true := by
  obtain ⟨taken, critical⟩ := Option.ne_none_iff_exists'.mp held
  simp only [World.step, sound, sectionStep, critical]
  cases taken <;> rfl

/-- A traversal that is under way goes on, with the mutex free. -/
theorem advance_enabled (sound : w.fault = none) (free : w.critical = none) {t : TraversalId}
    {tr : Traversal σ} (found : w.traversals[t]? = some tr) (progress : tr.localState ≠ none) :
    (w.step (.advance t)).isSome = true := by
  simp only [World.step, sound, World.advance, found, progress, free, Option.isSome_none,
    Bool.false_eq_true, if_false]
  split
  · rfl
  · split
    · rfl
    · split <;> rfl

theorem carriesOn_of_invocation (mine : a.invocation = some i) (enabled : (w.step a).isSome = true)
    (found : w.invocations[i]? = some inv) (busy : inv.phase ≠ .ready) : w.carriesOn a = true := by
  cases a with
  | dereference j =>
      cases mine
      exfalso
      unfold World.step World.dereference at enabled
      simp [found, busy] at enabled
  | clearTracked j => rfl
  | lockNext j => rfl
  | reachEnd j => rfl
  | increment j => rfl
  | finish j => rfl
  | janitor j => rfl
  | destroyCache j => rfl
  | releaseState j => rfl
  | _ => cases mine

theorem leavesSlot_of_invocation (mine : a.invocation = some i) : a.leavesSlot = false := by
  cases a with
  | slotReturns j result => cases mine
  | slotThrows j expiredSlot => cases mine
  | _ => rfl

theorem credit_of_inside (inside : a.leavesSlot = false) : credit a = 0 := by
  cases a with
  | slotThrows j expiredSlot => cases inside
  | _ => rfl

/-- Where no other step carries on, slot functions are all that is in progress. -/
theorem Steady.only_running (steady : w.Steady compare)
    (stuck : ∀ a, w.carriesOn a = true → a.leavesSlot = false → w.step a = none) :
    w.critical = none ∧ w.trash = [] ∧ (∀ tr ∈ w.traversals, tr.localState = none) ∧
      ∀ inv ∈ w.invocations, inv.phase ≠ .running → inv.phase = .done := by
  have sound := steady.sound
  have disabled : ∀ a, w.carriesOn a = true → a.leavesSlot = false →
      (w.step a).isSome = true → False := by
    intro a carries inside enabled
    rw [stuck a carries inside] at enabled
    cases enabled
  have free : w.critical = none := by
    by_contra held
    exact disabled .section rfl rfl (section_enabled sound held)
  refine ⟨free, ?_, ?_, ?_⟩
  · by_contra nonempty
    apply disabled (.release 0) rfl rfl
    simp [World.step, sound, World.release, List.length_pos_of_ne_nil nonempty]
  · intro tr member
    obtain ⟨t, found⟩ := List.mem_iff_getElem?.mp member
    by_contra progress
    exact disabled (.advance t) rfl rfl (advance_enabled sound free found progress)
  · intro inv member idle
    obtain ⟨i, found⟩ := List.mem_iff_getElem?.mp member
    by_contra begun
    by_cases ready : inv.phase = .ready
    · apply disabled (.finish i) rfl rfl
      simp [World.step, sound, World.finish, found, ready]
    · obtain ⟨a, mine, _, enabled⟩ := invocation_enabled sound free found idle begun
      exact disabled a (carriesOn_of_invocation mine enabled found ready)
        (leavesSlot_of_invocation mine) enabled

/-- Where something is still in progress, a step that carries on is possible, and some
of them bring the end nearer. -/
theorem Settling.progress (settling : w.Settling compare) (order : StrictWeak compare)
    (busy : ¬ w.AtRest) : w.Eases := by
  by_contra tiring
  have stuck : ∀ a, w.carriesOn a = true → a.leavesSlot = false → w.step a = none := by
    intro a carries inside
    by_contra enabled
    exact tiring (settling.eases order carries (credit_of_inside inside)
      (Option.isSome_iff_ne_none.mpr enabled))
  obtain ⟨free, released, walked, returned⟩ := settling.steady.only_running stuck
  apply busy
  apply settling.steady.atRest free _ walked released
  intro inv member
  apply returned inv member
  intro running
  obtain ⟨i, found⟩ := List.mem_iff_getElem?.mp member
  exact tiring (settling.eases_running found running)

/-- At rest there is nothing to carry on with. -/
theorem AtRest.still (rest : w.AtRest) (carries : w.carriesOn a = true) : w.step a = none := by
  have finished : ∀ {i : InvocationId} {inv : Invocation σ}, w.invocations[i]? = some inv →
      inv.phase = .done := fun found => rest.returned _ (List.mem_of_getElem? found)
  unfold World.step
  split
  · rfl
  · cases a with
    | «section» => simp only [sectionStep, rest.unlocked]
    | clearTracked i | lockNext i | reachEnd i | dereference i | increment i | finish i | janitor i
    | destroyCache i | releaseState i | slotReturns i _ | slotThrows i _ =>
        cases found : w.invocations[i]? with
        | none =>
            simp only [World.clearTracked, World.lockNext, World.reachEnd, World.dereference,
              World.increment, World.finish, World.janitor, World.destroyCache, World.releaseState,
              World.slotReturns, World.slotThrows, found]
        | some inv =>
            simp [World.clearTracked, World.lockNext, World.reachEnd, World.dereference,
              World.increment, World.finish, World.janitor, World.destroyCache, World.releaseState,
              World.slotReturns, World.slotThrows, found, finished found]
    | advance t =>
        cases found : w.traversals[t]? with
        | none => simp only [World.advance, found]
        | some tr => simp [World.advance, found, rest.walked tr (List.mem_of_getElem? found)]
    | release n => simp [World.release, rest.released]
    | _ => cases carries

/-! ### The end of all operations -/

/-- The exceptions that slots throw. -/
def exceptions (actions : List (Action σ)) : Nat :=
  actions.countP fun a => match a with
    | .slotThrows _ _ => true
    | _ => false

theorem exceptions_credit (actions : List (Action σ)) :
    total (fun _ => credit) actions = 2 * exceptions actions := by
  induction actions with
  | nil => rfl
  | cons a rest ih =>
      rw [total_cons, ih, exceptions, exceptions, List.countP_cons]
      cases a <;> simp [credit, Nat.add_comm, Nat.mul_add]

/-- Every step carries on with what has been begun. -/
def CarriesOn (w : World σ) (later : List (Action σ)) : Prop :=
  Runs.Guarded World.step (fun w a => w.carriesOn a = true) w later

/-- While no operation begins, only so many steps can be taken, two more for each
exception; the signal is at rest when none is possible, and not before; and it can be
brought to rest. -/
structure Ends (w : World σ) : Prop where
  bounded : ∀ later final, w.CarriesOn later → Runs.run World.step w later = some final →
    later.length ≤ w.effort + 2 * exceptions later
  exactly : ∀ later final, w.CarriesOn later → Runs.run World.step w later = some final →
    (final.AtRest ↔ ∀ a, final.carriesOn a = true → final.step a = none)
  reached : ∃ later final, w.CarriesOn later ∧ Runs.run World.step w later = some final ∧
    final.AtRest

/-- All that is in progress after an undisturbed run comes to its end. -/
theorem operations_end {combiner : σ.Combiner} {owners : ObjectId → Nat}
    {defaultCompare groupCompare : σ.Group → σ.Group → Bool} {actions : List (Action σ)}
    (order : StrictWeak groupCompare) (agree : ∀ x y, defaultCompare x y = groupCompare x y)
    (guarded : Runs.Guarded World.step Undisturbed
      (World.construct combiner defaultCompare groupCompare owners) actions)
    (ran : Runs.run World.step (World.construct combiner defaultCompare groupCompare owners)
      actions = some w) : w.Ends := by
  have alike : defaultCompare = groupCompare := funext fun x => funext fun y => agree x y
  subst alike
  have keeps : ∀ (state : World σ) (a : Action σ) (next : World σ),
      state.Settling defaultCompare → state.carriesOn a = true → state.step a = some next →
        next.Settling defaultCompare :=
    fun _ _ _ settling carries stepped =>
      settling.step order (carriesOn_undisturbed carries) stepped
  have settling : w.Settling defaultCompare :=
    Runs.run_invariant (fun _ _ _ settling undisturbed stepped =>
      settling.step order undisturbed stepped) (construct_settling combiner defaultCompare owners)
      guarded ran
  refine ⟨fun later final carries ranLater => ?_, fun later final carries ranLater => ?_, ?_⟩
  · have paid : final.effort + total (fun _ _ => 1) later ≤
        w.effort + total (fun _ => credit) later :=
      Runs.run_ranked keeps (fun _ _ _ settling carries stepped => settling.steady.pays carries
        (settling.step order (carriesOn_undisturbed carries) stepped).steady.sound stepped)
        settling carries ranLater
    rw [exceptions_credit, total_const] at paid
    omega
  · have settled := Runs.run_invariant keeps settling carries ranLater
    refine ⟨fun rest a => rest.still, fun stuck => ?_⟩
    by_contra busy
    obtain ⟨actions, next, carries, ranNext, less⟩ := settled.progress order busy
    cases actions with
    | nil =>
        cases ranNext
        exact absurd less (Nat.lt_irrefl _)
    | cons a others =>
        obtain ⟨middle, stepped, _⟩ := Runs.run_cons ranNext
        rw [stuck a carries.1] at stepped
        cases stepped
  · obtain ⟨later, final, carries, ranLater, _, rest⟩ := Runs.run_to_rest keeps
      (fun _ settling busy => settling.progress order busy) settling
    exact ⟨later, final, carries, ranLater, rest⟩

/-! ### Critical sections -/

/-- The steps that the client which holds the mutex has before it. -/
def holdSteps (w : World σ) : Nat :=
  match w.critical with
  | none => 0
  | some (.grabTrackedObjects _ _ todo locked) =>
      2 * todo.length + if todo ≠ [] ∧ locked.isSome then 0 else 1
  | some (.contains ..) => 1
  | some (.cleanupConnections it k count _ _) =>
      match w.heap.impl with
      | none => 0
      | some impl =>
          let ahead := ((w.heap.connectionBodies impl).list.ahead it).length
          (if count = 0 then ahead else min (count - k) ahead) + 1

theorem holdSteps_of_free (free : w.critical = none) : w.holdSteps = 0 := by
  simp only [holdSteps, free]

theorem holdSteps_of_grab {client : GrabClient} {b : BodyId} {todo : List VoidWeakPtr}
    {locked : Option (Option ObjectId)}
    (critical : w.critical = some (.grabTrackedObjects client b todo locked)) :
    w.holdSteps = 2 * todo.length + if todo ≠ [] ∧ locked.isSome then 0 else 1 := by
  simp only [holdSteps, critical]

theorem holdSteps_of_cleanup {it : Iterator} {k count : Nat} {grabTracked : Bool}
    {after : AfterCleanup σ} {impl : SignalImpl} (present : w.heap.impl = some impl)
    (critical : w.critical = some (.cleanupConnections it k count grabTracked after)) :
    w.holdSteps = (if count = 0 then ((w.heap.connectionBodies impl).list.ahead it).length
      else min (count - k) ((w.heap.connectionBodies impl).list.ahead it).length) + 1 := by
  simp only [holdSteps, critical, present]

/-- Every round of a cleanup leaves a node behind. -/
theorem holdSteps_round {it next : Iterator} {k count : Nat} {grabTracked : Bool}
    {after : AfterCleanup σ} {impl impl' : SignalImpl} {b : BodyId}
    (present : w.heap.impl = some impl) (present' : w'.heap.impl = some impl')
    (critical : w.critical = some (.cleanupConnections it k count grabTracked after))
    (critical' : w'.critical = some (.cleanupConnections next (k + 1) count grabTracked after))
    (more : count = 0 ∨ k < count)
    (here : (w.heap.connectionBodies impl).list.value? it = some b)
    (behind : (w'.heap.connectionBodies impl').list.ahead next =
      (w.heap.connectionBodies impl).list.ahead ((w.heap.connectionBodies impl).list.next it)) :
    w'.holdSteps + 1 ≤ w.holdSteps := by
  obtain ⟨node, later, ahead, after_⟩ := ahead_here here
  rw [holdSteps_of_cleanup present critical, holdSteps_of_cleanup present' critical', behind, ahead,
    after_, List.length_cons]
  split <;> omega

theorem Ended.holdSteps_pos {client : GrabClient} {b : BodyId} {todo : List VoidWeakPtr}
    {locked : Option (Option ObjectId)} (ended : Ended w b todo locked u)
    (critical : w.critical = some (.grabTrackedObjects client b todo locked)) :
    0 < w.holdSteps := by
  rw [holdSteps_of_grab critical]
  cases ended with
  | grabbed locked => simp
  | expired p rest expired => simp

/-- Every step of the client that holds the mutex brings its unlock nearer. -/
theorem Effect.holds (effect : Effect w .section w') (sound : w'.fault = none)
    (advances : w'.critical ≠ w.critical) (held : w.critical ≠ none) :
    w'.holdSteps + 1 ≤ w.holdSteps := by
  have unlocks : w'.critical = none → 0 < w.holdSteps → w'.holdSteps + 1 ≤ w.holdSteps := by
    intro free last
    rw [holdSteps_of_free free]
    exact last
  cases effect with
  | sweepStart impl it count grabTracked after free => exact absurd free held
  | copyAndSweep impl grabTracked after free => exact absurd free held
  | grabStart client b free => exact absurd free held
  | move i inv inv' found move => cases move
  | outside w' outside => exact absurd outside.critical advances
  | fault u f cause u_eq => cases sound
  | promote client b p rest critical alive =>
      rw [holdSteps_of_grab critical, holdSteps_of_grab (w := w.enter _) rfl]
      simp
  | keep client b p rest locked critical =>
      rw [holdSteps_of_grab critical, holdSteps_of_grab (w := (w.insertLocked _ _).enter _) rfl]
      simp
      omega
  | answer b todo locked u critical ended => exact unlocks rfl (ended.holdSteps_pos critical)
  | count t b todo locked u tr critical ended => exact unlocks rfl (ended.holdSteps_pos critical)
  | commit i b locked inv critical =>
      exact unlocks rfl ((Ended.grabbed locked).holdSteps_pos critical)
  | skip i b todo locked u inv critical ended => exact unlocks rfl (ended.holdSteps_pos critical)
  | lost client b todo locked u critical ended => exact unlocks rfl (ended.holdSteps_pos critical)
  | contains t b weakPimpl pimpl locked u tr critical =>
      refine unlocks rfl ?_
      simp only [holdSteps, critical, Nat.zero_lt_one]
  | containsLost t b weakPimpl pimpl locked u critical =>
      refine unlocks rfl ?_
      simp only [holdSteps, critical, Nat.zero_lt_one]
  | sweepErase it i count grabTracked after impl b list next critical present inside more here
      dead erased =>
      obtain ⟨same, rfl⟩ := GroupedList.erase_some erased
      refine holdSteps_round present present critical rfl more here ?_
      have current : ((w.heap.setConnectionBodies impl list).connectionBodies impl) = list := by
        simp [Heap.setConnectionBodies, Heap.connectionBodies]
      change ((w.heap.setConnectionBodies impl list).connectionBodies impl).list.ahead _ = _
      rw [current, same]
      exact ahead_erase here
  | sweepSkip it i count grabTracked after impl b critical present inside more here connected =>
      obtain ⟨store, unheard⟩ := checkExpired_store w grabTracked b
      rw [unheard]
      exact holdSteps_round present present critical rfl more here rfl
  | sweepEnd it i count grabTracked after impl critical present done =>
      refine unlocks (finishCleanup_critical w impl it after) ?_
      rw [holdSteps_of_cleanup present critical]
      exact Nat.succ_pos _

/-- Some client holds the mutex, whoever takes the step. -/
def WhileHeld (w : World σ) (a : Action σ) : Prop := Undisturbed w a ∧ w.critical ≠ none

def holderSteps : Action σ → Nat
  | .section => 1
  | _ => 0

/-- The others can neither delay the unlock nor bring it about. -/
theorem Orderly.hold_pays (orderly : w.Orderly compare) (order : StrictWeak compare)
    (held : WhileHeld w a) (stepped : w.step a = some w') :
    w'.holdSteps + holderSteps a ≤ w.holdSteps + 0 := by
  obtain ⟨sound, effect⟩ := step_effect stepped
  have later := orderly.step order held.1 stepped
  by_cases mine : a = .section
  · subst mine
    have advances : w'.critical ≠ w.critical := by
      refine sectionStep_advances ?_ later.sound
      simpa only [World.step, sound, Option.isSome_none, Bool.false_eq_true, if_false] using stepped
    exact effect.holds later.sound advances held.2
  · obtain ⟨critical, heap⟩ := effect.excludes held.2 mine
    have same := heap.resolve_right held.1.1
    have idle : holderSteps a = 0 := by cases a <;> first | rfl | exact absurd rfl mine
    simp only [holdSteps, critical, same, idle]
    exact Nat.le_refl _

/-- While no invocation or traversal reads the current list, a connection or an invocation
looks at two connections of the list at most. -/
theorem holdSteps_alone {impl : SignalImpl} (present : w.heap.impl = some impl)
    (alone : w.unique impl.sharedState = true)
    (begins : (∃ arguments, a = .connect arguments) ∨ a = .invoke)
    (stepped : w.step a = some w') : w'.holdSteps ≤ 3 := by
  obtain ⟨sound, _⟩ := step_effect stepped
  simp only [World.step, sound, Option.isSome_none, Bool.false_eq_true, if_false] at stepped
  have swept : ∀ it count grabTracked after, count ≠ 0 → count ≤ 2 →
      (w.enter (.cleanupConnections it 0 count grabTracked after)).holdSteps ≤ 3 := by
    intro it count grabTracked after some few
    rw [holdSteps_of_cleanup (w := w.enter _) present rfl, if_neg some]
    omega
  rcases begins with ⟨arguments, rfl⟩ | rfl
  · obtain ⟨other, locked, rfl⟩ := Option.map_eq_some_iff.mp stepped
    cases (lockImpl_some locked).2.symm.trans present
    simp only [nolockForceUniqueConnectionList, alone, nolockCleanupConnections, Bool.true_eq_false,
      if_false]
    exact swept _ 2 _ _ (by decide) (by decide)
  · obtain ⟨other, locked, rfl⟩ := Option.map_eq_some_iff.mp stepped
    cases (lockImpl_some locked).2.symm.trans present
    simp only [alone, if_true, nolockCleanupConnections]
    exact swept _ 1 _ _ (by decide) (by decide)

/-- After any undisturbed run, a client that holds the mutex can go on whatever the others
do meanwhile, and unlocks after a number of steps that is fixed when it locks: two for each
object that is tracked, or one for each connection that the cleanup may look at, which are
no more than two for a new connection or invocation of a list that nobody else reads. -/
theorem critical_sections_end {combiner : σ.Combiner} {owners : ObjectId → Nat}
    {defaultCompare groupCompare : σ.Group → σ.Group → Bool} {actions : List (Action σ)}
    (order : StrictWeak groupCompare) (agree : ∀ x y, defaultCompare x y = groupCompare x y)
    (guarded : Runs.Guarded World.step Undisturbed
      (World.construct combiner defaultCompare groupCompare owners) actions)
    (ran : Runs.run World.step (World.construct combiner defaultCompare groupCompare owners)
      actions = some w) :
    (∀ later final, Runs.Guarded World.step WhileHeld w later →
      Runs.run World.step w later = some final →
        final.holdSteps + total (fun _ => holderSteps) later ≤ w.holdSteps ∧
          (final.critical ≠ none → (final.step .section).isSome = true)) ∧
      ∀ impl a w', w.heap.impl = some impl → w.unique impl.sharedState = true →
        (∃ arguments, a = .connect arguments) ∨ a = .invoke → w.step a = some w' →
          w'.holdSteps ≤ 3 := by
  have alike : defaultCompare = groupCompare := funext fun x => funext fun y => agree x y
  subst alike
  have orderly := (construct_orderly combiner defaultCompare owners).run order guarded ran
  refine ⟨fun later final held ranLater => ⟨?_, ?_⟩, fun impl a w' present alone begins stepped =>
    holdSteps_alone present alone begins stepped⟩
  · have paid : final.holdSteps + total (fun _ => holderSteps) later ≤
        w.holdSteps + total (fun _ _ => 0) later :=
      Runs.run_ranked (fun _ _ _ orderly held stepped => orderly.step order held.1 stepped)
        (fun _ _ _ orderly held stepped => orderly.hold_pays order held stepped) orderly held
        ranLater
    rwa [total_const, Nat.mul_zero] at paid
  · exact section_enabled (orderly.run order (held.mono fun _ _ held => held.1) ranLater).sound

end World

/-- An invocation grabs the object that its only slot tracks. -/
def grabTracked : List (Action natSignal) :=
  [.connect { group := none, slot := .ofFunctor 10 [.boost 7], position := .atBack }, .section,
    .invoke, .section, .section, .lockNext 0]

def dropAndGoOn : List (Action natSignal) := [.drop 7, .section]

theorem grabTracked_sections_end :
    ∃ w : World natSignal, Runs.run World.step ownedStart grabTracked = some w ∧
      w.critical ≠ none ∧ w.holdSteps = 3 ∧
      ∀ final, Runs.run World.step w dropAndGoOn = some final → final.holdSteps ≤ 2 := by
  have ends : ((Runs.run World.step ownedStart grabTracked).map fun w =>
      (w.critical.isSome, w.holdSteps, w.fault.isNone)) = some (true, 3, true) := by
    decide +kernel
  obtain ⟨w, ran, facts⟩ := Option.map_eq_some_iff.mp ends
  simp only [Prod.mk.injEq] at facts
  obtain ⟨held, steps, _⟩ := facts
  have guarded : Runs.Guarded World.step World.Undisturbed ownedStart grabTracked := by
    apply World.Undisturbed.of_forall
    · simp [grabTracked]
    · simp [grabTracked]
  have taken : w.critical ≠ none := Option.isSome_iff_ne_none.mp held
  refine ⟨w, ran, taken, steps, fun final ranLater => ?_⟩
  have calm : Runs.Guarded World.step World.Undisturbed w dropAndGoOn := by
    apply World.Undisturbed.of_forall
    · simp [dropAndGoOn]
    · simp [dropAndGoOn]
  have while_ : Runs.Guarded World.step World.WhileHeld w dropAndGoOn := by
    refine ⟨⟨calm.1, taken⟩, fun next stepped => ⟨⟨(calm.2 next stepped).1, ?_⟩, fun _ _ => trivial⟩⟩
    have kept := ((World.step_effect stepped).2.excludes taken (fun same => by cases same)).1
    rwa [kept]
  have brief := ((World.critical_sections_end natLess_strictWeak (fun _ _ => rfl) guarded ran).1
    _ final while_ ranLater).1
  have once : total (fun _ => World.holderSteps) dropAndGoOn = 1 := rfl
  rw [once, steps] at brief
  omega

/-- A slot that tracks an object is called while it disconnects itself and the object is
let go. -/
def callAndDrop : List (Action natSignal) :=
  [.connect { group := none, slot := .ofFunctor 10 [.boost 7], position := .atBack }, .section,
    .invoke, .section, .section, .lockNext 0, .section, .section, .section, .dereference 0,
    .disconnect 0, .drop 7]

/-- The object and the slot outlive their owners until the invocation is over. -/
theorem callAndDrop_ends :
    ∃ w : World natSignal, Runs.run World.step ownedStart callAndDrop = some w ∧
      w.owned 7 = true ∧ w.owners 7 = 0 ∧ (w.bodies 0).slot.isSome = true ∧
      (w.bodies 0).connected = false ∧ w.Ends := by
  have ends : ((Runs.run World.step ownedStart callAndDrop).map fun w =>
      (w.owned 7, w.owners 7, (w.bodies 0).slot.isSome, (w.bodies 0).connected)) =
        some (true, 0, true, false) := by decide +kernel
  obtain ⟨w, ran, facts⟩ := Option.map_eq_some_iff.mp ends
  simp only [Prod.mk.injEq] at facts
  obtain ⟨owned, dropped, held, finished⟩ := facts
  have guarded : Runs.Guarded World.step World.Undisturbed ownedStart callAndDrop := by
    apply World.Undisturbed.of_forall
    · simp [callAndDrop]
    · simp [callAndDrop]
  exact ⟨w, ran, owned, dropped, held, finished,
    World.operations_end natLess_strictWeak (fun _ _ => rfl) guarded ran⟩

end Signals2
