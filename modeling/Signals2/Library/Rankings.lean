/-
Rankings of a machine's states: what bounds the length of its runs, and what brings
them to rest.  A step may cost some of the rank and may be given some; a run pays for
all its steps out of the rank it starts with and what it is given on the way.  A machine
whose states have ranks at several levels may raise those below the one it lowers.
-/

import Mathlib.Data.DFinsupp.WellFounded
import Signals2.Library.IndexedLists
import Signals2.Library.Runs

namespace Runs

open IndexedLists

variable {State Action : Type*} {step : State → Action → Option State}
variable {guard : State → Action → Prop} {Invariant : State → Prop} {rank : State → Nat}

/-- The ranking rule. -/
theorem run_ranked {cost credit : Action → Nat}
    (keeps : ∀ state action next, Invariant state → guard state action →
      step state action = some next → Invariant next)
    (pays : ∀ state action next, Invariant state → guard state action →
      step state action = some next → rank next + cost action ≤ rank state + credit action)
    {state final : State} {actions : List Action} (start : Invariant state)
    (guarded : Guarded step guard state actions) (ran : run step state actions = some final) :
    rank final + total (fun _ => cost) actions ≤ rank state + total (fun _ => credit) actions := by
  induction actions generalizing state with
  | nil =>
      have same : state = final := Option.some.inj ran
      subst same
      exact Nat.le_refl _
  | cons action rest ih =>
      obtain ⟨next, stepped, ranRest⟩ := run_cons ran
      have later := ih (keeps _ _ _ start guarded.1 stepped) (guarded.2 next stepped) ranRest
      have here := pays _ _ _ start guarded.1 stepped
      simp only [total_cons]
      omega

/-- The rest rule: where some allowed steps lower the rank of every state that is not at
rest, some allowed run ends at rest. -/
theorem run_to_rest {Rest : State → Prop}
    (keeps : ∀ state action next, Invariant state → guard state action →
      step state action = some next → Invariant next)
    (lowers : ∀ state, Invariant state → ¬ Rest state → ∃ actions next,
      Guarded step guard state actions ∧ run step state actions = some next ∧
        rank next < rank state)
    {state : State} (start : Invariant state) :
    ∃ actions final, Guarded step guard state actions ∧ run step state actions = some final ∧
      Invariant final ∧ Rest final := by
  induction bound : rank state using Nat.strongRecOn generalizing state with
  | ind n ih =>
      by_cases rest : Rest state
      · exact ⟨[], state, trivial, rfl, start, rest⟩
      · obtain ⟨first, middle, allowed, ran, lower⟩ := lowers state start rest
        have kept := run_invariant keeps start allowed ran
        obtain ⟨second, final, allowed', ran', holds, rest'⟩ :=
          ih (rank middle) (bound ▸ lower) kept rfl
        refine ⟨first ++ second, final, (guarded_append ran).mpr ⟨allowed, allowed'⟩, ?_, holds,
          rest'⟩
        rw [run_append, ran]
        exact ran'

/-- The state after an allowed step, and the state before it. -/
def Follows (step : State → Action → Option State) (guard : State → Action → Prop)
    (later earlier : State) : Prop :=
  ∃ action, guard earlier action ∧ step earlier action = some later

/-- What is lower at one level and no higher above it is lower at a level above which all
is the same. -/
theorem lex_of_level {m : Nat} {low high : Fin m → Nat} {k : Fin m} (lower : low k < high k)
    (above : ∀ j, k < j → low j ≤ high j) :
    Pi.Lex (fun i j => i > j) (fun x y => x < y) low high := by
  have found : (Finset.univ.filter fun j => low j < high j).Nonempty :=
    ⟨k, Finset.mem_filter.mpr ⟨Finset.mem_univ k, lower⟩⟩
  let top := (Finset.univ.filter fun j => low j < high j).max' found
  have last : ∀ j, low j < high j → j ≤ top := by
    intro j less
    exact Finset.le_max' _ j (Finset.mem_filter.mpr ⟨Finset.mem_univ j, less⟩)
  have less : low top < high top := (Finset.mem_filter.mp (Finset.max'_mem _ found)).2
  refine ⟨top, ?_, less⟩
  intro j higher
  have behind : k < j := Nat.lt_of_le_of_lt (last k lower) higher
  apply Nat.le_antisymm (above j behind)
  by_contra smaller
  exact absurd (last j (Nat.lt_of_not_le smaller)) (not_le_of_gt higher)

/-- The rule of levels: where every allowed step lowers one level and raises none above
it, no allowed run goes on for ever. -/
theorem acc_of_levels {m : Nat} {levels : State → Fin m → Nat}
    (keeps : ∀ state action next, Invariant state → guard state action →
      step state action = some next → Invariant next)
    (lowers : ∀ state action next, Invariant state → guard state action →
      step state action = some next →
        ∃ k, levels next k < levels state k ∧ ∀ j, k < j → levels next j ≤ levels state j)
    {state : State} (start : Invariant state) : Acc (Follows step guard) state := by
  have descent : WellFounded
      (Pi.Lex (fun i j : Fin m => i > j) fun {_} (x y : Nat) => x < y) :=
    Pi.Lex.wellFounded _ fun _ => Nat.lt_wfRel.wf
  induction ranked : levels state using descent.induction generalizing state with
  | _ high ih =>
      constructor
      rintro next ⟨action, allowed, stepped⟩
      obtain ⟨k, lower, above⟩ := lowers state action next start allowed stepped
      exact ih (levels next) (ranked ▸ lex_of_level lower above)
        (keeps state action next start allowed stepped) rfl

end Runs
