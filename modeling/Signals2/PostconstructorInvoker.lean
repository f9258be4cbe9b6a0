/-
The invokers that descend from one call of `deconstruct`.  An invoker holds the
`shared_ptr` and a flag of its own that says whether it has postconstructed; whether the
object has been postconstructed is known to the object only.
-/

import Signals2.Library.Runs

namespace Signals2

abbrev InvokerId := Nat

/-- `invokers` are the flags `_postconstructed` of the invokers that are left, `running`
the calls of `adl_postconstruct` in progress, each for an invoker, and `completions` says
how many have completed normally.  `handedOut` has an entry for each `shared_ptr` that an
invoker has returned: what `completions` was then. -/
structure Deconstructed where
  invokers : List (Option Bool)
  running : List InvokerId
  completions : Nat
  handedOut : List Nat
deriving DecidableEq, Repr

inductive InvokerAction where
  | copy (i : InvokerId)
  | assign (i other : InvokerId)
  | destroy (i : InvokerId)
  -- `postconstruct` with any arguments, or the conversion
  | postconstruct (i : InvokerId)
  -- one of the running calls of `adl_postconstruct` ends
  | completes (n : Nat)
  | throws (n : Nat)
deriving DecidableEq, Repr

namespace Deconstructed

/-- What `deconstruct` returns. -/
def deconstruct : Deconstructed :=
  { invokers := [some false]
    running := []
    completions := 0
    handedOut := [] }

variable (d : Deconstructed)

/-- The flag of an invoker that is still there. -/
def postconstructed? (i : InvokerId) : Option Bool := d.invokers[i]?.join

/-- `return _sp`. -/
def handOut : Deconstructed := { d with handedOut := d.completions :: d.handedOut }

def copy (i : InvokerId) : Option Deconstructed :=
  (d.postconstructed? i).map fun flag => { d with invokers := d.invokers ++ [some flag] }

def assign (i other : InvokerId) : Option Deconstructed :=
  match d.postconstructed? i, d.postconstructed? other with
  | some _, some flag => some { d with invokers := d.invokers.set i (some flag) }
  | _, _ => none

/-- Not while a member function of it runs. -/
def destroy (i : InvokerId) : Option Deconstructed :=
  if i ∈ d.running then none
  else (d.postconstructed? i).map fun _ => { d with invokers := d.invokers.set i none }

/-- `postconstruct` up to the call of `adl_postconstruct`, if there is one. -/
def postconstruct (i : InvokerId) : Option Deconstructed :=
  (d.postconstructed? i).map fun flag =>
    if flag = false then { d with running := i :: d.running } else d.handOut

def completes (n : Nat) : Option Deconstructed :=
  d.running[n]?.map fun i =>
    { d with
      invokers := d.invokers.set i (some true)
      running := d.running.eraseIdx n
      completions := d.completions + 1 }.handOut

def throws (n : Nat) : Option Deconstructed :=
  d.running[n]?.map fun _ => { d with running := d.running.eraseIdx n }

def step (d : Deconstructed) : InvokerAction → Option Deconstructed
  | .copy i => d.copy i
  | .assign i other => d.assign i other
  | .destroy i => d.destroy i
  | .postconstruct i => d.postconstruct i
  | .completes n => d.completes n
  | .throws n => d.throws n

variable {d d' : Deconstructed} {a : InvokerAction}

/-- Nobody gets past the test of a flag when the object has been postconstructed or
a postconstructor is running. -/
def OneAtATime (d : Deconstructed) (a : InvokerAction) : Prop :=
  ∀ i, a = .postconstruct i → d.postconstructed? i = some false →
    d.completions = 0 ∧ d.running = []

/-! ### What every run keeps -/

/-- A flag that is set, and a pointer that is handed out, say that the object has been
postconstructed; a call that is running is one for an invoker that is left. -/
structure Honest (d : Deconstructed) : Prop where
  flags : ∀ i, d.postconstructed? i = some true → 0 < d.completions
  handedOut : ∀ n ∈ d.handedOut, 0 < n
  running : ∀ i ∈ d.running, d.postconstructed? i ≠ none

theorem deconstruct_honest : deconstruct.Honest where
  flags i set := by
    cases i with
    | zero => cases set
    | succ i => cases set
  handedOut n member := by cases member
  running i member := by cases member

/-- The flag that an invoker has after a change to one of them. -/
theorem postconstructed?_set {invokers : List (Option Bool)} {i j : InvokerId}
    {flag : Option Bool} {set : Bool} (found : (invokers.set i flag)[j]?.join = some set) :
    j = i ∧ flag = some set ∨ invokers[j]?.join = some set := by
  by_cases same : i = j
  · subst same
    rw [List.getElem?_set_self'] at found
    cases there : invokers[i]? with
    | none =>
        rw [there] at found
        cases found
    | some old =>
        rw [there] at found
        exact .inl ⟨rfl, found⟩
  · rw [List.getElem?_set_ne same] at found
    exact .inr found

theorem postconstructed?_kept {invokers : List (Option Bool)} {i j : InvokerId} {set : Bool}
    (there : invokers[j]?.join ≠ none) : (invokers.set i (some set))[j]?.join ≠ none := by
  by_cases same : i = j
  · subst same
    rw [List.getElem?_set_self']
    cases found : invokers[i]? with
    | none =>
        rw [found] at there
        exact absurd rfl there
    | some old => exact fun impossible => by cases impossible
  · rw [List.getElem?_set_ne same]
    exact there

theorem Honest.handOut (honest : d.Honest) (done : 0 < d.completions) : d.handOut.Honest where
  flags := honest.flags
  handedOut n member := by
    rcases List.mem_cons.mp member with rfl | earlier
    · exact done
    · exact honest.handedOut n earlier
  running := honest.running

/-- With more invokers, or other flags that are as honest. -/
theorem Honest.setInvokers (honest : d.Honest) {invokers : List (Option Bool)}
    (flags : ∀ i : InvokerId, invokers[i]?.join = some true →
      ∃ j, d.postconstructed? j = some true)
    (running : ∀ i ∈ d.running, invokers[i]?.join ≠ none) :
    ({ d with invokers := invokers } : Deconstructed).Honest where
  flags i set := by
    obtain ⟨j, set'⟩ := flags i set
    exact honest.flags j set'
  handedOut := honest.handedOut
  running := running

theorem Honest.step (honest : d.Honest) (stepped : d.step a = some d') : d'.Honest := by
  cases a with
  | copy i =>
      obtain ⟨flag, found, rfl⟩ := Option.map_eq_some_iff.mp stepped
      apply honest.setInvokers
      · intro j set
        rcases Nat.lt_trichotomy j d.invokers.length with old | new | beyond
        · rw [List.getElem?_append_left old] at set
          exact ⟨j, set⟩
        · subst new
          rw [List.getElem?_append_right (Nat.le_refl _), Nat.sub_self] at set
          have same : flag = true := Option.some.inj set
          subst same
          exact ⟨i, found⟩
        · have outside : (d.invokers ++ [some flag]).length ≤ j := by
            rw [List.length_append, List.length_singleton]
            exact beyond
          rw [List.getElem?_eq_none outside] at set
          cases set
      · intro j member
        have there := honest.running j member
        have old : j < d.invokers.length := by
          by_contra beyond
          apply there
          rw [postconstructed?, List.getElem?_eq_none (Nat.le_of_not_lt beyond)]
          rfl
        rw [List.getElem?_append_left old]
        exact there
  | assign i other =>
      simp only [Deconstructed.step, assign] at stepped
      split at stepped
      · rename_i old flag foundI foundOther
        cases stepped
        apply honest.setInvokers
        · intro j set
          rcases postconstructed?_set set with ⟨_, same⟩ | before
          · cases same
            exact ⟨other, foundOther⟩
          · exact ⟨j, before⟩
        · intro j member
          exact postconstructed?_kept (honest.running j member)
      · cases stepped
  | destroy i =>
      simp only [Deconstructed.step, destroy] at stepped
      split at stepped
      · cases stepped
      · rename_i idle
        obtain ⟨flag, found, rfl⟩ := Option.map_eq_some_iff.mp stepped
        apply honest.setInvokers
        · intro j set
          rcases postconstructed?_set set with ⟨_, same⟩ | before
          · cases same
          · exact ⟨j, before⟩
        · intro j member
          have different : i ≠ j := by
            intro same
            subst same
            exact idle member
          rw [List.getElem?_set_ne different]
          exact honest.running j member
  | postconstruct i =>
      obtain ⟨flag, found, rfl⟩ := Option.map_eq_some_iff.mp stepped
      cases flag with
      | false =>
          rw [if_pos rfl]
          exact {
            flags := honest.flags
            handedOut := honest.handedOut
            running := by
              intro j member
              rcases List.mem_cons.mp member with rfl | earlier
              · rw [postconstructed?] at found ⊢
                rw [found]
                exact Option.some_ne_none _
              · exact honest.running j earlier }
      | true =>
          rw [if_neg (by simp)]
          exact honest.handOut (honest.flags i found)
  | completes n =>
      obtain ⟨i, found, rfl⟩ := Option.map_eq_some_iff.mp stepped
      refine Honest.handOut ?_ (Nat.succ_pos _)
      exact {
        flags := fun _ _ => Nat.succ_pos _
        handedOut := honest.handedOut
        running := by
          intro j member
          exact postconstructed?_kept (honest.running j (List.mem_of_mem_eraseIdx member)) }
  | throws n =>
      obtain ⟨i, found, rfl⟩ := Option.map_eq_some_iff.mp stepped
      exact {
        flags := honest.flags
        handedOut := honest.handedOut
        running := fun j member => honest.running j (List.mem_of_mem_eraseIdx member) }

/-! ### One completion -/

/-- Either the object is not postconstructed and one call may be at it, or it is and
none is. -/
def Single (d : Deconstructed) : Prop := d.completions + d.running.length ≤ 1

theorem length_eraseIdx_found {running : List InvokerId} {n : Nat} {i : InvokerId}
    (found : running[n]? = some i) : (running.eraseIdx n).length + 1 = running.length := by
  obtain ⟨below, _⟩ := List.getElem?_eq_some_iff.mp found
  rw [List.length_eraseIdx_of_lt below]
  omega

theorem deconstruct_single : deconstruct.Single := Nat.zero_le 1

theorem Single.step (single : d.Single) (alone : OneAtATime d a)
    (stepped : d.step a = some d') : d'.Single := by
  unfold Single at single ⊢
  cases a with
  | copy i =>
      obtain ⟨flag, found, rfl⟩ := Option.map_eq_some_iff.mp stepped
      exact single
  | assign i other =>
      simp only [Deconstructed.step, assign] at stepped
      split at stepped
      · cases stepped
        exact single
      · cases stepped
  | destroy i =>
      simp only [Deconstructed.step, destroy] at stepped
      split at stepped
      · cases stepped
      · obtain ⟨flag, found, rfl⟩ := Option.map_eq_some_iff.mp stepped
        exact single
  | postconstruct i =>
      obtain ⟨flag, found, rfl⟩ := Option.map_eq_some_iff.mp stepped
      cases flag with
      | false =>
          obtain ⟨none, idle⟩ := alone i rfl found
          rw [if_pos rfl]
          simp [none, idle]
      | true =>
          rw [if_neg (by simp)]
          exact single
  | completes n =>
      obtain ⟨i, found, rfl⟩ := Option.map_eq_some_iff.mp stepped
      have fewer := length_eraseIdx_found found
      change d.completions + 1 + (d.running.eraseIdx n).length ≤ 1
      omega
  | throws n =>
      obtain ⟨i, found, rfl⟩ := Option.map_eq_some_iff.mp stepped
      have fewer := length_eraseIdx_found found
      change d.completions + (d.running.eraseIdx n).length ≤ 1
      omega

/-- What is promised about the object and its pointers. -/
structure Lawful (d : Deconstructed) : Prop where
  once : d.completions ≤ 1
  handedOut : ∀ n ∈ d.handedOut, 0 < n
  -- until then every invoker that is left can be called, and calls `adl_postconstruct`
  retry : d.completions = 0 → ∀ i flag, d.postconstructed? i = some flag →
    d.step (.postconstruct i) = some { d with running := i :: d.running }
  thrown : ∀ n d', d.step (.throws n) = some d' →
    d'.completions = d.completions ∧ d'.invokers = d.invokers ∧ d'.handedOut = d.handedOut

theorem Honest.retry (honest : d.Honest) (not : d.completions = 0) {i : InvokerId} {flag : Bool}
    (found : d.postconstructed? i = some flag) :
    d.step (.postconstruct i) = some { d with running := i :: d.running } := by
  cases flag with
  | true =>
      have done := honest.flags i found
      omega
  | false =>
      change d.postconstruct i = _
      rw [postconstruct, found]
      rfl

theorem Honest.lawful (honest : d.Honest) (single : d.Single) : d.Lawful where
  once := by
    unfold Single at single
    omega
  handedOut := honest.handedOut
  retry not i flag found := honest.retry not found
  thrown n d' stepped := by
    obtain ⟨i, found, rfl⟩ := Option.map_eq_some_iff.mp stepped
    exact ⟨rfl, rfl, rfl⟩

/-- A call that gets past the test when it should not can end in a second completion. -/
theorem second_completion (early : ¬ OneAtATime d a) :
    ∃ later d', Runs.run step d (a :: later) = some d' ∧ 1 < d'.completions := by
  unfold OneAtATime at early
  push Not at early
  obtain ⟨i, rfl, found, busy⟩ := early
  have begins : d.step (.postconstruct i) = some { d with running := i :: d.running } := by
    change d.postconstruct i = _
    rw [postconstruct, found]
    rfl
  cases started : d.completions with
  | succ n =>
      refine ⟨[.completes 0], _, by simp only [Runs.run, begins]; rfl, ?_⟩
      change 1 < d.completions + 1
      omega
  | zero =>
      obtain ⟨j, rest, both⟩ := List.exists_cons_of_ne_nil (busy started)
      refine ⟨[.completes 0, .completes 0], _, by simp only [Runs.run, begins, both]; rfl, ?_⟩
      change 1 < d.completions + 1 + 1
      omega

/-! ### Any run -/

/-- As long as nobody gets past the test too late, the object is postconstructed once; and
the first time somebody does, a second completion can follow. -/
theorem postconstruct_runs {actions : List InvokerAction} {d : Deconstructed}
    (guarded : Runs.Guarded step OneAtATime deconstruct actions)
    (ran : Runs.run step deconstruct actions = some d) :
    d.Lawful ∧ ∀ a, ¬ OneAtATime d a →
      ∃ later d', Runs.run step d (a :: later) = some d' ∧ ¬ d'.Lawful := by
  have honest : d.Honest :=
    Runs.run_invariant (fun _ _ _ before _ stepped => before.step stepped) deconstruct_honest
      guarded ran
  have single : d.Single :=
    Runs.run_invariant (fun _ _ _ before alone stepped => before.step alone stepped)
      deconstruct_single guarded ran
  refine ⟨honest.lawful single, ?_⟩
  intro a early
  obtain ⟨later, d', ranLater, twice⟩ := second_completion early
  refine ⟨later, d', ranLater, fun lawful => ?_⟩
  have once := lawful.once
  omega

/-! ### Two runs -/

/-- A postconstructor throws and is called again; the invoker is copied and asked again. -/
def throwAndRetry : List InvokerAction :=
  [.postconstruct 0, .throws 0, .postconstruct 0, .completes 0, .copy 0, .postconstruct 1,
    .destroy 0]

def oneAtATime (d : Deconstructed) : InvokerAction → Bool
  | .postconstruct i =>
      !(d.postconstructed? i == some false) || d.completions == 0 && d.running.isEmpty
  | _ => true

theorem oneAtATime_sound (d : Deconstructed) (a : InvokerAction)
    (checked : oneAtATime d a = true) : OneAtATime d a := by
  intro i same unset
  subst same
  simpa [oneAtATime, unset] using checked

theorem throwAndRetry_lawful :
    ∃ d, Runs.run step deconstruct throwAndRetry = some d ∧ d.Lawful := by
  have ends : (Runs.run step deconstruct throwAndRetry).isSome := by decide +kernel
  obtain ⟨d, ran⟩ := Option.isSome_iff_exists.mp ends
  have checked : Runs.checked step oneAtATime deconstruct throwAndRetry = true := by
    decide +kernel
  exact ⟨d, ran, (postconstruct_runs (.of_checked oneAtATime_sound checked) ran).1⟩

/-- The invoker is copied before it has postconstructed. -/
def copyThenPostconstruct : List InvokerAction :=
  [.copy 0, .postconstruct 0, .completes 0, .postconstruct 1, .completes 0]

theorem copyThenPostconstruct_twice :
    ∃ d, Runs.run step deconstruct copyThenPostconstruct = some d ∧ d.completions = 2 := by
  refine ⟨_, rfl, rfl⟩

end Deconstructed

end Signals2
