/-
Finite runs of a deterministic labelled machine with a partial step function.

A guard restricts the steps a run may take; it sees the state before the step.
Invariants, two-state relations and step-by-step simulations are lifted from
one step to a whole run here, once, so that a client states only what one step
does.  Nothing in this file fixes the states or the actions.
-/

import Mathlib.Data.List.Basic

namespace Runs

variable {State Action Output Abstract : Type*}

/-- `none` when some action of the list is not enabled where it is tried. -/
def run (step : State → Action → Option State) :
    State → List Action → Option State
  | state, [] => some state
  | state, action :: rest =>
      match step state action with
      | none => none
      | some next => run step next rest

/-- Every step taken meets the guard in the state before it. -/
def Guarded (step : State → Action → Option State)
    (guard : State → Action → Prop) : State → List Action → Prop
  | _, [] => True
  | state, action :: rest =>
      guard state action ∧
        ∀ next, step state action = some next →
          Guarded step guard next rest

/-- What an observer collects along a run, step by step. -/
def outputs (step : State → Action → Option State)
    (emit : State → Action → List Output) :
    State → List Action → List Output
  | _, [] => []
  | state, action :: rest =>
      emit state action ++
        match step state action with
        | none => []
        | some next => outputs step emit next rest

/-- The states reached from `start` by guarded runs. -/
def Reachable (step : State → Action → Option State)
    (guard : State → Action → Prop) (start state : State) : Prop :=
  ∃ actions, Guarded step guard start actions ∧
    run step start actions = some state

variable {step : State → Action → Option State}
variable {guard : State → Action → Prop}

theorem run_cons {state final : State} {action : Action} {rest : List Action}
    (ran : run step state (action :: rest) = some final) :
    ∃ next, step state action = some next ∧
      run step next rest = some final := by
  cases stepped : step state action with
  | none =>
      simp only [run, stepped] at ran
      contradiction
  | some next =>
      simp only [run, stepped] at ran
      exact ⟨next, rfl, ran⟩

theorem run_append (state : State) (first second : List Action) :
    run step state (first ++ second) =
      (run step state first).bind fun middle => run step middle second := by
  induction first generalizing state with
  | nil => rfl
  | cons action rest ih =>
      simp only [List.cons_append, run]
      cases step state action with
      | none => rfl
      | some next => exact ih next

theorem guarded_append {state middle : State} {first second : List Action}
    (ran : run step state first = some middle) :
    Guarded step guard state (first ++ second) ↔
      Guarded step guard state first ∧ Guarded step guard middle second := by
  induction first generalizing state with
  | nil =>
      have same : state = middle := Option.some.inj ran
      subst same
      simp [Guarded]
  | cons action rest ih =>
      obtain ⟨next, stepped, ranRest⟩ := run_cons ran
      have tail := ih ranRest
      simp only [List.cons_append, Guarded, stepped, Option.some.injEq,
        forall_eq', tail, and_assoc]

theorem Guarded.mono {weaker : State → Action → Prop} {state : State}
    {actions : List Action} (implies : ∀ s a, guard s a → weaker s a)
    (guarded : Guarded step guard state actions) :
    Guarded step weaker state actions := by
  induction actions generalizing state with
  | nil => trivial
  | cons action rest ih =>
      exact ⟨implies _ _ guarded.1, fun next stepped => ih (guarded.2 next stepped)⟩

/-- Guards that agree on the steps that can be taken agree along every run. -/
theorem guarded_congr {other : State → Action → Prop}
    (same : ∀ state action next, step state action = some next →
      (guard state action ↔ other state action))
    {state final : State} {actions : List Action}
    (ran : run step state actions = some final) :
    Guarded step guard state actions ↔ Guarded step other state actions := by
  induction actions generalizing state with
  | nil => exact Iff.rfl
  | cons action rest ih =>
      obtain ⟨next, stepped, ranRest⟩ := run_cons ran
      simp only [Guarded, stepped, Option.some.injEq, forall_eq', ih ranRest,
        same state action next stepped]

/-- Guards that agree on the allowed steps from invariant states agree along every
allowed run from one. -/
theorem guarded_congr_on {Invariant : State → Prop} {assumed other : State → Action → Prop}
    (keeps : ∀ state action next, Invariant state → assumed state action →
      step state action = some next → Invariant next)
    (same : ∀ state action next, Invariant state → assumed state action →
      step state action = some next → (guard state action ↔ other state action))
    {state final : State} {actions : List Action} (start : Invariant state)
    (allowed : Guarded step assumed state actions)
    (ran : run step state actions = some final) :
    Guarded step guard state actions ↔ Guarded step other state actions := by
  induction actions generalizing state with
  | nil => exact Iff.rfl
  | cons action rest ih =>
      obtain ⟨next, stepped, ranRest⟩ := run_cons ran
      have later := ih (keeps _ _ _ start allowed.1 stepped) (allowed.2 next stepped) ranRest
      simp only [Guarded, stepped, Option.some.injEq, forall_eq', later,
        same state action next start allowed.1 stepped]

theorem Guarded.of_forall {state : State} {actions : List Action}
    (all : ∀ action ∈ actions, ∀ s, guard s action) : Guarded step guard state actions := by
  induction actions generalizing state with
  | nil => trivial
  | cons action rest ih =>
      refine ⟨all action List.mem_cons_self state, fun next _ => ?_⟩
      exact ih fun other member => all other (List.mem_cons_of_mem action member)

/-- Evaluates a guard along a run. -/
def checked (step : State → Action → Option State) (check : State → Action → Bool) :
    State → List Action → Bool
  | _, [] => true
  | state, action :: rest =>
      check state action &&
        match step state action with
        | none => true
        | some next => checked step check next rest

theorem Guarded.of_checked {check : State → Action → Bool} {state : State}
    {actions : List Action} (sound : ∀ s a, check s a = true → guard s a)
    (holds : checked step check state actions = true) : Guarded step guard state actions := by
  induction actions generalizing state with
  | nil => trivial
  | cons action rest ih =>
      obtain ⟨here, later⟩ := Bool.and_eq_true_iff.mp holds
      refine ⟨sound _ _ here, fun next stepped => ih ?_⟩
      simpa only [stepped] using later

/-- The invariant rule: what every guarded step keeps, every guarded run keeps. -/
theorem run_invariant {Invariant : State → Prop}
    (keeps : ∀ state action next, Invariant state → guard state action →
      step state action = some next → Invariant next)
    {state final : State} {actions : List Action}
    (start : Invariant state) (guarded : Guarded step guard state actions)
    (ran : run step state actions = some final) : Invariant final := by
  induction actions generalizing state with
  | nil =>
      have same : state = final := Option.some.inj ran
      exact same ▸ start
  | cons action rest ih =>
      obtain ⟨next, stepped, ranRest⟩ := run_cons ran
      exact ih (keeps _ _ _ start guarded.1 stepped) (guarded.2 next stepped) ranRest

/-- The progress rule: when every guarded step from an invariant state is enabled and
keeps the invariant, every guarded run can be taken to its end. -/
theorem run_total {Invariant : State → Prop}
    (progress : ∀ state action, Invariant state → guard state action →
      ∃ next, step state action = some next ∧ Invariant next)
    {state : State} {actions : List Action} (start : Invariant state)
    (guarded : Guarded step guard state actions) :
    ∃ final, run step state actions = some final ∧ Invariant final := by
  induction actions generalizing state with
  | nil => exact ⟨state, rfl, start⟩
  | cons action rest ih =>
      obtain ⟨next, stepped, after⟩ := progress state action start guarded.1
      obtain ⟨final, ran, holds⟩ := ih after (guarded.2 next stepped)
      refine ⟨final, ?_, holds⟩
      simp only [run, stepped, ran]

/-- The exactness rule: when a step ends well exactly if it meets the guard, and no
step follows a bad end, a run ends well exactly if each of its steps meets it. -/
theorem final_iff_guarded {Invariant Good : State → Prop} {assumed : State → Action → Prop}
    (keeps : ∀ state action next, Invariant state → assumed state action →
      step state action = some next → Invariant next)
    (exactly : ∀ state action next, Invariant state → step state action = some next →
      (Good next ↔ guard state action))
    (stops : ∀ state action, ¬ Good state → step state action = none)
    {state final : State} {actions : List Action} (start : Invariant state) (good : Good state)
    (allowed : Guarded step assumed state actions)
    (ran : run step state actions = some final) :
    Good final ↔ Guarded step guard state actions := by
  induction actions generalizing state with
  | nil =>
      have same : state = final := Option.some.inj ran
      subst same
      exact ⟨fun _ => trivial, fun _ => good⟩
  | cons action rest ih =>
      obtain ⟨next, stepped, ranRest⟩ := run_cons ran
      have here := exactly _ _ _ start stepped
      by_cases well : Good next
      · have later := ih (keeps _ _ _ start allowed.1 stepped) well (allowed.2 next stepped) ranRest
        simp only [Guarded, here.mp well, true_and, stepped, Option.some.injEq, forall_eq', later]
      · refine ⟨fun ended => absurd ?_ well, fun guarded => absurd (here.mpr guarded.1) well⟩
        cases rest with
        | nil =>
            have same : next = final := Option.some.inj ranRest
            exact same ▸ ended
        | cons second others =>
            obtain ⟨_, impossible, _⟩ := run_cons ranRest
            rw [stops next second well] at impossible
            cases impossible

/-- The two-state rule: a reflexive and transitive relation that every guarded
step from an invariant state respects relates the two ends of every run. -/
theorem run_relation {Invariant : State → Prop} {Related : State → State → Prop}
    (reflexive : ∀ state, Related state state)
    (transitive : ∀ first second third, Related first second →
      Related second third → Related first third)
    (keeps : ∀ state action next, Invariant state → guard state action →
      step state action = some next → Invariant next)
    (relates : ∀ state action next, Invariant state → guard state action →
      step state action = some next → Related state next)
    {state final : State} {actions : List Action}
    (start : Invariant state) (guarded : Guarded step guard state actions)
    (ran : run step state actions = some final) : Related state final := by
  induction actions generalizing state with
  | nil =>
      have same : state = final := Option.some.inj ran
      exact same ▸ reflexive state
  | cons action rest ih =>
      obtain ⟨next, stepped, ranRest⟩ := run_cons ran
      exact transitive _ _ _ (relates _ _ _ start guarded.1 stepped)
        (ih (keeps _ _ _ start guarded.1 stepped) (guarded.2 next stepped) ranRest)

/-- The simulation rule: each step's effect on the abstraction is the abstract
effect of what the step emits, hence so is the effect of a whole run. -/
theorem run_simulation {Invariant : State → Prop}
    {abstraction : State → Abstract} {emit : State → Action → List Output}
    {apply : Abstract → Output → Abstract}
    (keeps : ∀ state action next, Invariant state → guard state action →
      step state action = some next → Invariant next)
    (simulates : ∀ state action next, Invariant state → guard state action →
      step state action = some next →
      abstraction next = (emit state action).foldl apply (abstraction state))
    {state final : State} {actions : List Action}
    (start : Invariant state) (guarded : Guarded step guard state actions)
    (ran : run step state actions = some final) :
    abstraction final =
      (outputs step emit state actions).foldl apply (abstraction state) := by
  induction actions generalizing state with
  | nil =>
      have same : state = final := Option.some.inj ran
      subst same
      rfl
  | cons action rest ih =>
      obtain ⟨next, stepped, ranRest⟩ := run_cons ran
      have tail := ih (keeps _ _ _ start guarded.1 stepped)
        (guarded.2 next stepped) ranRest
      rw [tail, simulates _ _ _ start guarded.1 stepped]
      simp only [outputs, stepped, List.foldl_append]

/-- The lockstep rule: a second machine answers each guarded step of the first with the
translated action, hence each guarded run with the translated run. -/
theorem run_lockstep {State' Action' : Type*} {step' : State' → Action' → Option State'}
    {translate : Action → Action'} {Related : State → State' → Prop}
    (answers : ∀ state state' action next, Related state state' → guard state action →
      step state action = some next →
      ∃ next', step' state' (translate action) = some next' ∧ Related next next')
    {state final : State} {state' : State'} {actions : List Action}
    (start : Related state state') (guarded : Guarded step guard state actions)
    (ran : run step state actions = some final) :
    ∃ final', run step' state' (actions.map translate) = some final' ∧ Related final final' := by
  induction actions generalizing state state' with
  | nil =>
      have same : state = final := Option.some.inj ran
      subst same
      exact ⟨state', rfl, start⟩
  | cons action rest ih =>
      obtain ⟨next, stepped, ranRest⟩ := run_cons ran
      obtain ⟨next', stepped', related⟩ := answers _ _ _ _ start guarded.1 stepped
      obtain ⟨final', ran', ends⟩ := ih related (guarded.2 next stepped) ranRest
      refine ⟨final', ?_, ends⟩
      simp only [List.map_cons, run, stepped', ran']

/-- The history rule: two observers have collected `past` and `past'` so far; what
a guarded step and what it shows them keep, a guarded run and all that it shows
them keep. -/
theorem run_history {Output' : Type*} {emit : State → Action → List Output}
    {emit' : State → Action → List Output'}
    {Invariant : List Output → List Output' → State → Prop}
    (keeps : ∀ past past' state action next, Invariant past past' state →
      guard state action → step state action = some next →
      Invariant (past ++ emit state action) (past' ++ emit' state action) next)
    {past : List Output} {past' : List Output'} {state final : State} {actions : List Action}
    (start : Invariant past past' state) (guarded : Guarded step guard state actions)
    (ran : run step state actions = some final) :
    Invariant (past ++ outputs step emit state actions)
      (past' ++ outputs step emit' state actions) final := by
  induction actions generalizing past past' state with
  | nil =>
      have same : state = final := Option.some.inj ran
      subst same
      simpa only [outputs, List.append_nil] using start
  | cons action rest ih =>
      obtain ⟨next, stepped, ranRest⟩ := run_cons ran
      have tail := ih (keeps _ _ _ _ _ start guarded.1 stepped) (guarded.2 next stepped) ranRest
      simpa only [outputs, stepped, List.append_assoc] using tail

/-- The history rule for a single observer. -/
theorem run_observed {emit : State → Action → List Output} {Invariant : List Output → State → Prop}
    (keeps : ∀ past state action next, Invariant past state →
      guard state action → step state action = some next →
      Invariant (past ++ emit state action) next)
    {state final : State} {actions : List Action}
    (start : Invariant [] state) (guarded : Guarded step guard state actions)
    (ran : run step state actions = some final) :
    Invariant (outputs step emit state actions) final := by
  have both : ∀ (past : List Output) (_ : List Output) (s : State) (action : Action)
      (next : State), Invariant past s → guard s action → step s action = some next →
      Invariant (past ++ emit s action) next :=
    fun past _ => keeps past
  exact @run_history _ _ _ _ _ _ emit emit (fun past _ => Invariant past) both [] [] _ _ _
    start guarded ran

theorem outputs_append {emit : State → Action → List Output} {state middle : State}
    {first second : List Action} (ran : run step state first = some middle) :
    outputs step emit state (first ++ second) =
      outputs step emit state first ++ outputs step emit middle second := by
  induction first generalizing state with
  | nil =>
      have same : state = middle := Option.some.inj ran
      subst same
      rfl
  | cons action rest ih =>
      obtain ⟨next, stepped, ranRest⟩ := run_cons ran
      simp only [List.cons_append, outputs, stepped, ih ranRest, List.append_assoc]

/-- What an observer of the actions alone collects along a run that ends. -/
theorem outputs_of_actions {emit : Action → List Output} {state final : State}
    {actions : List Action} (ran : run step state actions = some final) :
    outputs step (fun _ action => emit action) state actions = actions.flatMap emit := by
  induction actions generalizing state with
  | nil => rfl
  | cons action rest ih =>
      obtain ⟨next, stepped, ranRest⟩ := run_cons ran
      simp only [outputs, stepped, ih ranRest, List.flatMap_cons]

theorem Reachable.invariant {Invariant : State → Prop} {start state : State}
    (keeps : ∀ state action next, Invariant state → guard state action →
      step state action = some next → Invariant next)
    (initial : Invariant start) (reached : Reachable step guard start state) :
    Invariant state := by
  obtain ⟨actions, guarded, ran⟩ := reached
  exact run_invariant keeps initial guarded ran

/-! ### Laws of histories -/

/-- Every event obeys the law, given the events before it. -/
def Along (law : List Output → Output → Prop) (events : List Output) : Prop :=
  ∀ before event after, events = before ++ event :: after → law before event

variable {law : List Output → Output → Prop}

theorem Along.nil : Along law [] := by
  intro before event after split
  simp at split

theorem Along.snoc {events : List Output} {event : Output} (along : Along law events)
    (next : law events event) : Along law (events ++ [event]) := by
  intro before other after split
  rcases List.eq_nil_or_concat after with rfl | ⟨init, last, rfl⟩
  · obtain ⟨rfl, same⟩ := List.append_inj' split rfl
    cases same
    exact next
  · have shorter : events ++ [event] = (before ++ other :: init) ++ [last] := by
      simpa using split
    obtain ⟨rfl, _⟩ := List.append_inj' shorter rfl
    exact along before other init rfl

theorem Along.init {first second : List Output} (along : Along law (first ++ second)) :
    Along law first := by
  intro before event after split
  apply along before event (after ++ second)
  rw [split]
  simp

theorem Along.of_mem {events : List Output} {event : Output} (along : Along law events)
    (member : event ∈ events) :
    ∃ before after, events = before ++ event :: after ∧ law before event := by
  obtain ⟨before, after, split⟩ := List.append_of_mem member
  exact ⟨before, after, split, along before event after split⟩

end Runs
