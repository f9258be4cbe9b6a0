/-
What `connection::blocked` tells.  It asks for the body and then for its blocker, and
never for the flag of a disconnected connection, so the answer is wrong exactly while
the body of a disconnected connection is still somewhere and no block is blocking it.
-/

import Signals2.ScopedConnections
import Signals2.ConnectionBlocks

namespace Signals2

variable {Name : Type} {σ : Name → SignalTemplate}

namespace Program

variable {p : Program σ}

/-- Some block on the connection is blocking. -/
def BlockedByBlock (p : Program σ) (body : Name × BodyId) : Prop :=
  ∃ this, p.blockReference this = some body ∧ p.blocking this = true

/-- The associated slot is disconnected, or there is none, or it is blocked. -/
def DisconnectedOrBlocked (p : Program σ) (this : ConnectionId) : Prop :=
  ∀ body, p.reference this = some body → ¬ p.Active body ∨ p.BlockedByBlock body

/-- A list that the signal, an invocation or a traversal uses still has the body, or an
operation under way has it in hand. -/
def Kept (p : Program σ) (body : Name × BodyId) : Prop :=
  (p.signals body.1).Held body.2 ∨ (p.signals body.1).sectionBody = some body.2 ∨
    Leftover.body body.2 ∈ (p.signals body.1).trash

/-- Disconnected, not swept yet, and not blocked. -/
def Lingers (p : Program σ) (body : Name × BodyId) : Prop :=
  ((p.signals body.1).bodies body.2).connected = false ∧ p.Kept body ∧ ¬ p.BlockedByBlock body

theorem alive_iff {body : Name × BodyId} : p.alive body = true ↔ p.Kept body :=
  World.bodyAlive_iff

theorem blocked_of_reference {this : ConnectionId} {body : Name × BodyId}
    (target : p.reference this = some body) :
    p.blocked this = (!p.alive body || (p.signals body.1).blocked body.2) := by
  unfold blocked lock
  rw [target]
  cases alive : p.alive body with
  | false => simp [Option.filter, alive]
  | true => simp [Option.filter, alive]

theorem blocked_of_null {this : ConnectionId} (null : p.reference this = none) :
    p.blocked this = true := by
  rw [blocked, lock, null]
  rfl

/-- The answer in terms of the body and the blocks. -/
theorem Linked.blocked_iff (linked : p.Linked) {this : ConnectionId} {body : Name × BodyId}
    (target : p.reference this = some body) :
    p.blocked this = true ↔ ¬ p.Kept body ∨ p.BlockedByBlock body := by
  rw [blocked_of_reference target, Bool.or_eq_true, ← alive_iff]
  cases alive : p.alive body with
  | false => simp
  | true =>
      rw [linked.sharedBlocking body alive]
      simp [BlockedByBlock]

theorem Linked.blocked_told (linked : p.Linked) (this : ConnectionId) :
    (p.blocked this = true ↔ p.DisconnectedOrBlocked this) ↔
      ∀ body, p.reference this = some body → ¬ p.Lingers body := by
  cases target : p.reference this with
  | none =>
      have told : p.DisconnectedOrBlocked this := by
        intro body present
        rw [target] at present
        cases present
      simp [blocked_of_null target, told]
  | some body =>
      have told : p.DisconnectedOrBlocked this ↔ ¬ p.Active body ∨ p.BlockedByBlock body := by
        constructor
        · intro all
          exact all body target
        · intro holds other present
          cases target.symm.trans present
          exact holds
      rw [linked.blocked_iff target, told]
      by_cases kept : p.Kept body
      · by_cases blocked : p.BlockedByBlock body
        · simp [Lingers, blocked]
        · cases connected : ((p.signals body.1).bodies body.2).connected with
          | false => simp [Lingers, Active, alive_iff, kept, blocked, connected]
          | true => simp [Lingers, Active, alive_iff, kept, blocked, connected]
      · simp [Lingers, Active, alive_iff, kept]

variable [DecidableEq Name]

/-- In every state of every run and for every connection object, `blocked` tells whether
the connection is disconnected or blocked exactly when the connection does not linger. -/
theorem connection_blocked_runs {combiner : ∀ name, (σ name).Combiner}
    {defaultCompare groupCompare : ∀ name, (σ name).Group → (σ name).Group → Bool}
    {owners : Name → ObjectId → Nat} {actions : List (ProgramAction σ)}
    (ran : Runs.run Program.step (Program.construct combiner defaultCompare groupCompare owners)
      actions = some p) (this : ConnectionId) :
    (p.blocked this = true ↔ p.DisconnectedOrBlocked this) ↔
      ∀ body, p.reference this = some body → ¬ p.Lingers body :=
  (linked_of_run ran).blocked_told this

end Program

/-- A connection is disconnected; its body stays on the list when the operation has
destroyed the slot object and given up the body it promoted. -/
def disconnectOnly : List (ProgramAction fun _ : Unit => natSignal) :=
  [.signal () (connectBack 10), .signal () .section, .refer ((), 0), .disconnect 0,
    .signal () (.release 1), .signal () (.release 0)]

theorem disconnectOnly_told :
    ∃ p : Program fun _ : Unit => natSignal,
      Runs.run Program.step natProgram disconnectOnly = some p ∧
      ((p.blocked 0 = true ↔ p.DisconnectedOrBlocked 0) ↔
        ∀ body, p.reference 0 = some body → ¬ p.Lingers body) := by
  have ends : (Runs.run Program.step natProgram disconnectOnly).isSome := by decide +kernel
  obtain ⟨p, ran⟩ := Option.isSome_iff_exists.mp ends
  exact ⟨p, ran, Program.connection_blocked_runs (natProgram_start ▸ ran) 0⟩

/-- The next connect sweeps the body. -/
def thenConnect : List (ProgramAction fun _ : Unit => natSignal) :=
  [.signal () (connectBack 11), .signal () .section, .signal () .section]

/-- The same connection, disconnected before and after, without any block: it is not
blocked at first, and blocked once its body is gone. -/
theorem disconnectOnly_not_blocked :
    ∃ p p' : Program fun _ : Unit => natSignal,
      Runs.run Program.step natProgram disconnectOnly = some p ∧
      Runs.run Program.step p thenConnect = some p' ∧
      p.reference 0 = some ((), 0) ∧ p'.reference 0 = some ((), 0) ∧
      ¬ p.Active ((), 0) ∧ ¬ p'.Active ((), 0) ∧
      p.blocked 0 = false ∧ p'.blocked 0 = true ∧
      ¬ (p.blocked 0 = true ↔ p.DisconnectedOrBlocked 0) := by
  have before : (Runs.run Program.step natProgram disconnectOnly).map
      (fun p => (p.reference 0, p.blocked 0)) = some (some ((), 0), false) := by
    decide +kernel
  have dead : (Runs.run Program.step natProgram disconnectOnly).map
      (fun p => ((p.signals ()).bodies 0).connected) = some false := by
    decide +kernel
  have after : (Runs.run Program.step natProgram (disconnectOnly ++ thenConnect)).map
      (fun p => (p.reference 0, p.blocked 0)) = some (some ((), 0), true) := by
    decide +kernel
  have gone : (Runs.run Program.step natProgram (disconnectOnly ++ thenConnect)).map
      (fun p => ((p.signals ()).bodies 0).connected) = some false := by
    decide +kernel
  obtain ⟨p, ran, first⟩ := Option.map_eq_some_iff.mp before
  rw [ran] at dead
  rw [Runs.run_append, ran, Option.bind_some] at after gone
  obtain ⟨p', ran', second⟩ := Option.map_eq_some_iff.mp after
  rw [ran'] at gone
  obtain ⟨target, free⟩ := Prod.mk.inj first
  obtain ⟨target', blocked⟩ := Prod.mk.inj second
  have inactive : ¬ p.Active ((), 0) := by
    rintro ⟨_, connected⟩
    exact absurd ((Option.some.inj dead).symm.trans connected) (by decide)
  have inactive' : ¬ p'.Active ((), 0) := by
    rintro ⟨_, connected⟩
    exact absurd ((Option.some.inj gone).symm.trans connected) (by decide)
  refine ⟨p, p', ran, ran', target, target', inactive, inactive', free, blocked, ?_⟩
  intro told
  have documented : p.DisconnectedOrBlocked 0 := by
    intro body present
    cases target.symm.trans present
    exact .inl inactive
  rw [told.mpr documented] at free
  cases free

end Signals2
