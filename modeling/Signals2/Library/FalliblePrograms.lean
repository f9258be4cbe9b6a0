/-
Programs that change a state, may throw, and may go wrong.  An exception keeps the
state that it leaves behind; going wrong is the end.  The rules below are those of a
total logic with two postconditions, one for a program that returns and one for a
program that throws.
-/

import Mathlib.Logic.Basic

namespace FalliblePrograms

inductive Outcome (State Fault Value : Type) where
  | returned (value : Value) (state : State)
  | thrown (state : State)
  | failed (fault : Fault)

def Program (State Fault Value : Type) := State → Outcome State Fault Value

namespace Program

variable {State Fault Value Value' : Type}

instance : Monad (Program State Fault) where
  pure value := fun s => .returned value s
  bind program next := fun s =>
    match program s with
    | .returned value s' => next value s'
    | .thrown s' => .thrown s'
    | .failed f => .failed f

def throw : Program State Fault Value := fun s => .thrown s

def fail (f : Fault) : Program State Fault Value := fun _ => .failed f

def get : Program State Fault State := fun s => .returned s s

def modify (change : State → State) : Program State Fault Unit :=
  fun s => .returned () (change s)

/-- A condition that is tested where the program stands. -/
def assert (f : Fault) (condition : Bool) : Program State Fault Unit :=
  if condition then pure () else fail f

/-- When the program throws, the cleanup runs and the exception goes on. -/
def onThrow (program : Program State Fault Value) (cleanup : Program State Fault Unit) :
    Program State Fault Value := fun s =>
  match program s with
  | .returned value s' => .returned value s'
  | .failed f => .failed f
  | .thrown s' =>
      match cleanup s' with
      | .returned _ s'' => .thrown s''
      | .thrown s'' => .thrown s''
      | .failed f => .failed f

/-- A loop over the numbers below a bound. -/
def repeatUpTo (body : Nat → Program State Fault Unit) : Nat → Program State Fault Unit
  | 0 => pure ()
  | n + 1 => do
      repeatUpTo body n
      body n

/-- From this state the program does not go wrong; it returns or throws as said. -/
def Spec (program : Program State Fault Value) (s : State) (returns : Value → State → Prop)
    (throws : State → Prop) : Prop :=
  match program s with
  | .returned value s' => returns value s'
  | .thrown s' => throws s'
  | .failed _ => False

/-- The parts of a program may be grouped at will. -/
theorem bind_assoc {Value'' : Type} (program : Program State Fault Value)
    (next : Value → Program State Fault Value') (last : Value' → Program State Fault Value'') :
    program >>= next >>= last = program >>= fun value => next value >>= last := by
  funext s
  simp only [bind]
  cases program s <;> rfl

/-! ### Rules -/

variable {s : State} {returns : Value → State → Prop} {throws : State → Prop}
variable {program : Program State Fault Value}

@[simp] theorem spec_pure {value : Value} :
    Spec (pure value : Program State Fault Value) s returns throws ↔ returns value s := Iff.rfl

@[simp] theorem spec_throw : Spec (throw : Program State Fault Value) s returns throws ↔ throws s :=
  Iff.rfl

@[simp] theorem spec_get {returns : State → State → Prop} :
    Spec (get : Program State Fault State) s returns throws ↔ returns s s := Iff.rfl

@[simp] theorem spec_modify {change : State → State} {returns : Unit → State → Prop} :
    Spec (modify change : Program State Fault Unit) s returns throws ↔ returns () (change s) :=
  Iff.rfl

theorem spec_bind {next : Value → Program State Fault Value'} {returns : Value' → State → Prop} :
    Spec (program >>= next) s returns throws ↔
      Spec program s (fun value s' => Spec (next value) s' returns throws) throws := by
  simp only [Spec, bind]
  cases program s <;> rfl

theorem spec_assert {f : Fault} {condition : Bool} {returns : Unit → State → Prop} :
    Spec (assert f condition) s returns throws ↔ condition = true ∧ returns () s := by
  cases condition with
  | true =>
      constructor
      · intro holds
        exact ⟨rfl, holds⟩
      · intro both
        exact both.2
  | false =>
      constructor
      · intro impossible
        cases impossible
      · intro both
        cases both.1

theorem assert_returned {f : Fault} {condition : Bool} (holds : condition = true) :
    assert f condition s = .returned () s := by
  rw [assert, if_pos holds]
  rfl

theorem spec_onThrow {cleanup : Program State Fault Unit} :
    Spec (onThrow program cleanup) s returns throws ↔
      Spec program s returns fun s' => Spec cleanup s' (fun _ => throws) throws := by
  unfold Spec onThrow
  cases program s with
  | returned value s' => rfl
  | failed f => rfl
  | thrown s' =>
      dsimp only
      cases cleanup s' <;> rfl

theorem Spec.mono {returns' : Value → State → Prop} {throws' : State → Prop}
    (spec : Spec program s returns throws)
    (returning : ∀ value s', returns value s' → returns' value s')
    (throwing : ∀ s', throws s' → throws' s') : Spec program s returns' throws' := by
  unfold Spec at spec ⊢
  cases outcome : program s with
  | returned value s' =>
      rw [outcome] at spec
      exact returning value s' spec
  | thrown s' =>
      rw [outcome] at spec
      exact throwing s' spec
  | failed f =>
      rw [outcome] at spec
      exact spec

/-- The rule of composition: what the first part leaves is where the rest starts. -/
theorem Spec.bind {next : Value → Program State Fault Value'} {middle : Value → State → Prop}
    {early : State → Prop} {returns : Value' → State → Prop} (first : Spec program s middle early)
    (rest : ∀ value s', middle value s' → Spec (next value) s' returns throws)
    (throwing : ∀ s', early s' → throws s') : Spec (program >>= next) s returns throws :=
  spec_bind.mpr (first.mono rest throwing)

/-- The first part is known to return. -/
theorem Spec.after {next : Value → Program State Fault Value'} {value : Value} {s' : State}
    {returns : Value' → State → Prop} (outcome : program s = .returned value s')
    (rest : Spec (next value) s' returns throws) : Spec (program >>= next) s returns throws := by
  rw [spec_bind]
  unfold Spec
  rw [outcome]
  exact rest

theorem Spec.onThrow {cleanup : Program State Fault Unit} {early : State → Prop}
    (first : Spec program s returns early)
    (clean : ∀ s', early s' → Spec cleanup s' (fun _ => throws) throws) :
    Spec (onThrow program cleanup) s returns throws :=
  spec_onThrow.mpr (first.mono (fun _ _ => id) clean)

/-- The rule for loops, with what holds before each round and what an exception leaves. -/
theorem spec_repeatUpTo {body : Nat → Program State Fault Unit} {n : Nat}
    {before : Nat → State → Prop} (start : before 0 s)
    (round : ∀ k < n, ∀ s', before k s' → Spec (body k) s' (fun _ => before (k + 1)) throws) :
    Spec (repeatUpTo body n) s (fun _ => before n) throws := by
  induction n with
  | zero => exact start
  | succ n ih =>
      have earlier : Spec (repeatUpTo body n) s (fun _ => before n) throws :=
        ih fun k below => round k (by omega)
      exact earlier.bind (fun _ s' => round n (Nat.lt_succ_self n) s') fun _ => id

/-- A program that cannot throw returns. -/
theorem Spec.returned (spec : Spec program s returns fun _ => False) :
    ∃ value s', program s = .returned value s' ∧ returns value s' := by
  unfold Spec at spec
  cases outcome : program s with
  | returned value s' =>
      rw [outcome] at spec
      exact ⟨value, s', rfl, spec⟩
  | thrown s' =>
      rw [outcome] at spec
      exact spec.elim
  | failed f =>
      rw [outcome] at spec
      exact spec.elim

theorem Spec.of_returned {value : Value} {s' : State} (spec : Spec program s returns throws)
    (outcome : program s = .returned value s') : returns value s' := by
  unfold Spec at spec
  rw [outcome] at spec
  exact spec

theorem Spec.of_thrown {s' : State} (spec : Spec program s returns throws)
    (outcome : program s = .thrown s') : throws s' := by
  unfold Spec at spec
  rw [outcome] at spec
  exact spec

theorem Spec.not_failed {f : Fault} (spec : Spec program s returns throws) :
    program s ≠ .failed f := by
  intro outcome
  unfold Spec at spec
  rw [outcome] at spec
  exact spec

/-! ### Going wrong -/

theorem bind_of_returned {next : Value → Program State Fault Value'} {value : Value} {s' : State}
    (outcome : program s = .returned value s') : (program >>= next) s = next value s' := by
  simp only [bind, outcome]

theorem bind_of_failed {next : Value → Program State Fault Value'} {f : Fault}
    (outcome : program s = .failed f) : (program >>= next) s = .failed f := by
  simp only [bind, outcome]

theorem bind_of_thrown {next : Value → Program State Fault Value'} {s' : State}
    (outcome : program s = .thrown s') : (program >>= next) s = .thrown s' := by
  simp only [bind, outcome]

theorem onThrow_of_failed {cleanup : Program State Fault Unit} {f : Fault}
    (outcome : program s = .failed f) : onThrow program cleanup s = .failed f := by
  simp only [Program.onThrow, outcome]

/-- A loop goes wrong when one of its rounds does. -/
theorem repeatUpTo_of_failed {body : Nat → Program State Fault Unit} {k n : Nat} {s' : State}
    {f : Fault} (below : k < n) (earlier : repeatUpTo body k s = .returned () s')
    (outcome : body k s' = .failed f) : repeatUpTo body n s = .failed f := by
  induction n with
  | zero => exact absurd below (Nat.not_lt_zero k)
  | succ n ih =>
      rw [repeatUpTo]
      by_cases last : k = n
      · subst last
        rw [bind_of_returned earlier]
        exact outcome
      · exact bind_of_failed (ih (by omega))

end Program

end FalliblePrograms
