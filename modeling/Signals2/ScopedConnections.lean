/-
Who disconnects.  A scoped connection is meant to disconnect what it refers to when it
is destroyed or given another connection, and at no other time.  It keeps to this
exactly as long as it is not assigned the connection that it refers to already, nor another
one by the operators that it inherits.
-/

import Signals2.Library.Runs
import Signals2.ConnectionObjects

namespace Signals2

variable {Name : Type} {σ : Name → SignalTemplate}

/-! ### One disconnection -/

namespace World

variable {σ : SignalTemplate} {w w' : World σ}

theorem disconnect_alive {b : BodyId} (free : w.critical = none) (alive : w.bodyAlive b = true)
    (c : BodyId) : ((w.nolockDisconnect b).keepBody b).unlock.bodyAlive c = w.bodyAlive c := by
  have section_ : ((w.nolockDisconnect b).keepBody b).unlock.sectionBody = w.sectionBody := by
    simp [sectionBody, unlock, free]
  have trash : (w.trash ++ [Leftover.body b] ++
      (w.nolockDisconnect b).garbage.map Leftover.slot).contains (Leftover.body c) =
        (w.trash.contains (Leftover.body c) || decide (c = b)) := by
    rw [Bool.eq_iff_iff]
    simp
  unfold bodyAlive at alive ⊢
  rw [section_]
  change (_ || _ || (w.trash ++ [Leftover.body b] ++
      (w.nolockDisconnect b).garbage.map Leftover.slot).contains (Leftover.body c)) = _
  rw [trash, ← Bool.or_assoc]
  by_cases same : c = b
  · subst same
    simp only [decide_true, Bool.or_true]
    exact alive.symm
  · simp only [same, decide_false, Bool.or_false]
    rfl

theorem disconnect_step {b : BodyId} (alive : w.bodyAlive b = true)
    (stepped : w.step (.disconnect b) = some w') :
    (∀ c, w'.bodyAlive c = w.bodyAlive c) ∧ (w'.bodies b).connected = false ∧
      ∀ c, c ≠ b → (w'.bodies c).connected = (w.bodies c).connected := by
  unfold step at stepped
  split at stepped
  · cases stepped
  · simp only [disconnect] at stepped
    split at stepped
    · cases stepped
    · rename_i taken
      cases stepped
      have free : w.critical = none := by simpa using taken
      refine ⟨disconnect_alive free alive, BodyStore.nolockDisconnect_connected b, ?_⟩
      intro c apart
      exact BodyStore.nolockDisconnect_other apart

end World

namespace Program

variable {p p' : Program σ} {a : ProgramAction σ}

/-- The connection is still there and connected. -/
def Active (p : Program σ) (body : Name × BodyId) : Prop :=
  p.alive body = true ∧ ((p.signals body.1).bodies body.2).connected = true

theorem Active.congr (same : p'.signals = p.signals) (body : Name × BodyId) :
    p'.Active body ↔ p.Active body := by
  rw [Active, Active, alive, alive, same]

/-! ### The discipline -/

/-- An operation of connection objects other than a call of `disconnect`. -/
def ownership : ProgramAction σ → Bool
  | .construct _ => true
  | .refer _ => true
  | .copyConstruct _ _ => true
  | .moveConstruct _ _ => true
  | .copyAssign _ _ => true
  | .moveAssign _ _ => true
  | .baseCopyAssign _ _ => true
  | .baseMoveAssign _ _ => true
  | .swap _ _ => true
  | .release _ => true
  | .destroy _ => true
  | _ => false

/-- The scoped connection that an operation destroys or assigns over. -/
def overwrites (p : Program σ) : ProgramAction σ → Option ConnectionId
  | .copyAssign this _ => if p.isScoped this then some this else none
  | .moveAssign this _ => if p.isScoped this then some this else none
  | .baseCopyAssign this _ => if p.isScoped this then some this else none
  | .baseMoveAssign this _ => if p.isScoped this then some this else none
  | .destroy this => if p.isScoped this then some this else none
  | _ => none

/-- The object whose reference an operation takes away. -/
def empties : ProgramAction σ → Option ConnectionId
  | .moveConstruct _ other => some other
  | .moveAssign this other => if other = this then none else some other
  | .baseMoveAssign this other => if other = this then none else some other
  | .release this => some this
  | _ => none

/-- What an operation has to do: it disconnects a connection exactly when a scoped
connection that it destroys or assigns over gives it up. -/
structure Lawful (p : Program σ) (a : ProgramAction σ) (p' : Program σ) : Prop where
  disconnects : ownership a = true → ∀ body, p.Active body →
    (¬ p'.Active body ↔ ∃ this, p.overwrites a = some this ∧ p.reference this = some body ∧
      p'.reference this ≠ some body)
  emptied : ∀ this, empties a = some this → p'.reference this = none
  swapped : ∀ this other, a = .swap this other →
    p'.reference this = p.reference other ∧ p'.reference other = p.reference this

/-- The connection that an assignment gives. -/
def given (p : Program σ) : ProgramAction σ → Option (Name × BodyId)
  | .copyAssign _ rhs => p.reference rhs
  | .moveAssign _ rhs => p.reference rhs
  | .baseCopyAssign _ rhs => p.reference rhs
  | .baseMoveAssign _ rhs => p.reference rhs
  | _ => none

/-- The assignments of the base class, and the move of an object onto itself, which is
recognized, leave connections alone. -/
def spares (this : ConnectionId) : ProgramAction σ → Bool
  | .moveAssign _ rhs => rhs = this
  | .baseCopyAssign _ _ => true
  | .baseMoveAssign _ _ => true
  | _ => false

/-- A scoped connection whose reference is still connected gets the same connection from
the operations that leave connections alone, and from the others another one. -/
def Unaliased (p : Program σ) (a : ProgramAction σ) : Prop :=
  ∀ this body, p.overwrites a = some this → p.Active body → p.reference this = some body →
    (p.given a = some body ↔ spares this a = true)

/-! ### References after a step -/

theorem connectionCopyAssign_reference {this rhs : ConnectionId} {conn : ConnectionObject Name}
    (present : p.object this = some conn) :
    (p.connectionCopyAssign this rhs).reference this = p.reference rhs := by
  unfold connectionCopyAssign
  split
  · rename_i same
    rw [same]
  · exact setReference_reference present _

theorem connectionMoveAssign_reference {this rhs : ConnectionId} {conn conn' : ConnectionObject Name}
    (present : p.object this = some conn) (present' : p.object rhs = some conn') :
    (p.connectionMoveAssign this rhs).reference this = p.reference rhs ∧
      (rhs ≠ this → (p.connectionMoveAssign this rhs).reference rhs = none) := by
  unfold connectionMoveAssign
  split
  · rename_i same
    subst same
    exact ⟨rfl, fun different => absurd rfl different⟩
  · rename_i different
    constructor
    · rw [reference_congr (setReference_other (Ne.symm different) none)]
      exact setReference_reference present _
    · intro _
      have kept : (p.setReference this (p.reference rhs)).object rhs = some conn' := by
        rw [setReference_other different]
        exact present'
      exact setReference_reference kept none

theorem swap_reference {this other : ConnectionId} {conn conn' : ConnectionObject Name}
    (present : p.object this = some conn) (present' : p.object other = some conn') :
    (p.swap this other).reference this = p.reference other ∧
      (p.swap this other).reference other = p.reference this := by
  unfold swap
  by_cases same : other = this
  · subst same
    obtain ⟨conn', kept⟩ : ∃ conn', (p.setReference other (p.reference other)).object other =
        some conn' := ⟨_, setReference_self present _⟩
    exact ⟨setReference_reference kept _, setReference_reference kept _⟩
  · have kept : (p.setReference this (p.reference other)).object other = some conn' := by
      rw [setReference_other same]
      exact present'
    constructor
    · rw [reference_congr (setReference_other (Ne.symm same) _)]
      exact setReference_reference present _
    · exact setReference_reference kept _

private theorem active_quiet (idle : ∀ this, p.overwrites a = some this → spares this a = true)
    (same : p'.signals = p.signals) (body : Name × BodyId) :
    p'.Active body ↔ p.Active body ∧ ¬ ∃ this, p.overwrites a = some this ∧
      spares this a = false ∧ p.reference this = some body := by
  rw [Active.congr same]
  constructor
  · intro active
    refine ⟨active, ?_⟩
    rintro ⟨this, written, different, _⟩
    rw [idle this written] at different
    cases different
  · exact And.left

/-- Other steps have no duty here. -/
theorem lawful_of_other (other : ownership a = false) : Lawful p a p' ∧ p.Unaliased a := by
  have nothing : p.overwrites a = none ∧ empties a = none := by
    cases a <;> simp_all [ownership, overwrites, empties]
  constructor
  · exact {
      disconnects := by
        intro owning
        rw [other] at owning
        cases owning
      emptied := by
        intro this emptied
        rw [nothing.2] at emptied
        cases emptied
      swapped := by
        intro this target same
        subst same
        cases other }
  · intro this body written
    rw [nothing.1] at written
    cases written

/-! ### What an operation disconnects -/

variable [DecidableEq Name]

theorem disconnect_spec {this : ConnectionId} (done : p.disconnect this = some p') :
    p'.connections = p.connections ∧
      ∀ body, p'.Active body ↔ p.Active body ∧ p.reference this ≠ some body := by
  unfold disconnect at done
  cases locked : p.lock this with
  | none =>
      rw [locked] at done
      cases done
      refine ⟨rfl, fun body => ⟨fun active => ⟨active, fun refers => ?_⟩, fun both => both.1⟩⟩
      rw [lock, refers, Option.filter_some, active.1] at locked
      cases locked
  | some target =>
      rw [locked] at done
      obtain ⟨name, b⟩ := target
      obtain ⟨w', stepped, rfl⟩ := Option.map_eq_some_iff.mp done
      obtain ⟨refers, alive⟩ := Option.filter_eq_some_iff.mp locked
      obtain ⟨alike, dead, others⟩ := World.disconnect_step alive stepped
      refine ⟨rfl, fun body => ?_⟩
      rw [refers]
      obtain ⟨name', c⟩ := body
      by_cases sameName : name' = name
      · subst sameName
        by_cases sameBody : c = b
        · subst sameBody
          simp [Active, dead]
        · have different : ¬ (name', b) = (name', c) := by
            intro same
            exact sameBody (Prod.mk.inj same).2.symm
          simp [Active, Program.alive, alike, others c sameBody, different]
      · have different : ¬ (name, b) = (name', c) := by
          intro same
          exact sameName (Prod.mk.inj same).1.symm
        simp only [Active, Program.alive, setSignal_other sameName, ne_eq, Option.some.injEq,
          different, not_false_eq_true, and_true]

private theorem active_disconnected {this : ConnectionId} {disconnected : Program σ}
    (written : p.overwrites a = some this) (different : spares this a = false)
    (done : p.disconnect this = some disconnected) (same : p'.signals = disconnected.signals)
    (body : Name × BodyId) :
    p'.Active body ↔ p.Active body ∧ ¬ ∃ this, p.overwrites a = some this ∧
      spares this a = false ∧ p.reference this = some body := by
  rw [Active.congr same, (disconnect_spec done).2]
  have only : p.reference this = some body ↔ ∃ this, p.overwrites a = some this ∧
      spares this a = false ∧ p.reference this = some body := by
    constructor
    · intro refers
      exact ⟨this, written, different, refers⟩
    · rintro ⟨other, written', _, refers⟩
      cases written.symm.trans written'
      exact refers
  rw [ne_eq, only]

/-- The object whose connection the code disconnects: the one written over, unless the
operation leaves connections alone. -/
theorem step_active (owning : ownership a = true) (stepped : p.step a = some p')
    (body : Name × BodyId) :
    p'.Active body ↔ p.Active body ∧ ¬ ∃ this, p.overwrites a = some this ∧
      spares this a = false ∧ p.reference this = some body := by
  cases a with
  | construct type =>
      cases stepped
      apply active_quiet
      · simp [overwrites]
      · rfl
  | refer target =>
      simp only [step] at stepped
      split at stepped
      · cases stepped
        apply active_quiet
        · simp [overwrites]
        · rfl
      · cases stepped
  | copyConstruct type other =>
      obtain ⟨conn, present, rfl⟩ := Option.map_eq_some_iff.mp stepped
      apply active_quiet
      · simp [overwrites]
      · rfl
  | moveConstruct type other =>
      obtain ⟨conn, present, rfl⟩ := Option.map_eq_some_iff.mp stepped
      apply active_quiet
      · simp [overwrites]
      · simp [connectionMoveConstruct, newConnection]
  | copyAssign this rhs =>
      obtain ⟨conn, other, present, present', cases_⟩ := step_copyAssign stepped
      rcases cases_ with ⟨plain, rfl⟩ | ⟨own, disconnected, done, rfl⟩
      · apply active_quiet
        · simp [overwrites, plain]
        · simp
      · have written : p.overwrites (.copyAssign this rhs) = some this := by
          simp [overwrites, own]
        exact active_disconnected written rfl done (by simp) body
  | moveAssign this rhs =>
      obtain ⟨conn, other, present, present', cases_⟩ := step_moveAssign stepped
      rcases cases_ with ⟨plain, rfl⟩ | ⟨rfl, rfl⟩ | ⟨own, different, disconnected, done, rfl⟩
      · apply active_quiet
        · simp [overwrites, plain]
        · simp
      · apply active_quiet
        · simp [overwrites, spares]
        · rfl
      · have written : p.overwrites (.moveAssign this rhs) = some this := by
          simp [overwrites, own]
        exact active_disconnected written (by simpa [spares] using different) done (by simp) body
  | baseCopyAssign this rhs =>
      obtain ⟨conn, other, present, present', rfl⟩ := step_baseCopyAssign stepped
      apply active_quiet
      · simp [spares]
      · simp
  | baseMoveAssign this rhs =>
      obtain ⟨conn, other, present, present', rfl⟩ := step_baseMoveAssign stepped
      apply active_quiet
      · simp [spares]
      · simp
  | swap this other =>
      simp only [step] at stepped
      split at stepped
      · cases stepped
        apply active_quiet
        · simp [overwrites]
        · simp [swap]
      · cases stepped
  | release this =>
      obtain ⟨conn, present, rfl⟩ := step_release stepped
      apply active_quiet
      · simp [overwrites]
      · simp [release, newConnection]
  | destroy this =>
      rcases step_destroy stepped with ⟨plain, rfl⟩ | ⟨own, disconnected, done, rfl⟩
      · apply active_quiet
        · simp [overwrites, plain]
        · rfl
      · have written : p.overwrites (.destroy this) = some this := by
          simp [overwrites, own]
        exact active_disconnected written rfl done rfl body
  | _ => cases owning

/-- The object written over refers to what it is given, and to nothing once destroyed. -/
theorem step_given {this : ConnectionId} (written : p.overwrites a = some this)
    (stepped : p.step a = some p') : p'.reference this = p.given a := by
  have onto : ∀ other, (if p.isScoped other then some other else none) = some this →
      p.isScoped other = true ∧ other = this := by
    intro other
    split
    · rename_i own
      intro same
      exact ⟨own, Option.some.inj same⟩
    · intro impossible
      cases impossible
  cases a with
  | copyAssign target rhs =>
      obtain ⟨own, rfl⟩ := onto target written
      obtain ⟨conn, other, present, present', cases_⟩ := step_copyAssign stepped
      rcases cases_ with ⟨plain, rfl⟩ | ⟨_, disconnected, done, rfl⟩
      · rw [own] at plain
        cases plain
      · have same := (disconnect_spec done).1
        rw [connectionCopyAssign_reference ((object_congr same target).trans present)]
        exact reference_congr (object_congr same rhs)
  | moveAssign target rhs =>
      obtain ⟨own, rfl⟩ := onto target written
      obtain ⟨conn, other, present, present', cases_⟩ := step_moveAssign stepped
      rcases cases_ with ⟨plain, rfl⟩ | ⟨rfl, rfl⟩ | ⟨_, different, disconnected, done, rfl⟩
      · rw [own] at plain
        cases plain
      · rfl
      · have same := (disconnect_spec done).1
        have moved := connectionMoveAssign_reference ((object_congr same target).trans present)
          ((object_congr same rhs).trans present')
        rw [moved.1]
        exact reference_congr (object_congr same rhs)
  | baseCopyAssign target rhs =>
      obtain ⟨own, rfl⟩ := onto target written
      obtain ⟨conn, other, present, present', rfl⟩ := step_baseCopyAssign stepped
      exact connectionCopyAssign_reference present
  | baseMoveAssign target rhs =>
      obtain ⟨own, rfl⟩ := onto target written
      obtain ⟨conn, other, present, present', rfl⟩ := step_baseMoveAssign stepped
      exact (connectionMoveAssign_reference present present').1
  | destroy target =>
      obtain ⟨own, rfl⟩ := onto target written
      have gone : ∀ q : Program σ, (q.remove target).reference target = none := by
        intro q
        rw [reference, remove_object]
        rfl
      rcases step_destroy stepped with ⟨_, rfl⟩ | ⟨_, disconnected, _, rfl⟩
      · exact gone p
      · exact gone disconnected
  | _ => cases written

theorem step_emptied {this : ConnectionId} (emptied : empties a = some this)
    (stepped : p.step a = some p') : p'.reference this = none := by
  cases a with
  | moveConstruct type other =>
      cases emptied
      obtain ⟨conn, present, rfl⟩ := Option.map_eq_some_iff.mp stepped
      exact setReference_reference (newConnection_object present type _) none
  | moveAssign target rhs =>
      simp only [empties] at emptied
      split at emptied
      · cases emptied
      · rename_i different
        cases emptied
        obtain ⟨conn, other, present, present', cases_⟩ := step_moveAssign stepped
        rcases cases_ with ⟨_, rfl⟩ | ⟨same, rfl⟩ | ⟨_, _, disconnected, done, rfl⟩
        · exact (connectionMoveAssign_reference present present').2 different
        · exact absurd same different
        · have same := (disconnect_spec done).1
          exact (connectionMoveAssign_reference ((object_congr same target).trans present)
            ((object_congr same this).trans present')).2 different
  | baseMoveAssign target rhs =>
      simp only [empties] at emptied
      split at emptied
      · cases emptied
      · rename_i different
        cases emptied
        obtain ⟨conn, other, present, present', rfl⟩ := step_baseMoveAssign stepped
        exact (connectionMoveAssign_reference present present').2 different
  | release target =>
      cases emptied
      obtain ⟨conn, present, rfl⟩ := step_release stepped
      exact setReference_reference (newConnection_object present .connection _) none
  | _ => cases emptied

/-- One operation keeps to the discipline exactly if it gives a scoped connection the
connection that it refers to already where it disconnects nothing, and only there. -/
theorem lawful_iff (owning : ownership a = true) (stepped : p.step a = some p') :
    Lawful p a p' ↔ p.Unaliased a := by
  constructor
  · intro lawful this body written active refers
    have after := step_active owning stepped body
    have rebound : p'.reference this = p.given a := step_given written stepped
    constructor
    · intro given
      by_contra touched
      have ends : ¬ p'.Active body := by
        rw [after]
        rintro ⟨_, untouched⟩
        exact untouched ⟨this, written, by simpa using touched, refers⟩
      obtain ⟨this', written', _, gone⟩ := (lawful.disconnects owning body active).mp ends
      cases written.symm.trans written'
      exact gone (rebound.trans given)
    · intro spared
      by_contra other
      apply (lawful.disconnects owning body active).mpr
      · exact ⟨this, written, refers, by rwa [rebound]⟩
      · rw [after]
        refine ⟨active, ?_⟩
        rintro ⟨this', written', touched, _⟩
        cases written.symm.trans written'
        rw [spared] at touched
        cases touched
  · intro unaliased
    exact {
      disconnects := by
        intro _ body active
        rw [step_active owning stepped]
        constructor
        · intro ends
          have touched : ∃ this, p.overwrites a = some this ∧ spares this a = false ∧
              p.reference this = some body := by
            by_contra untouched
            exact ends ⟨active, untouched⟩
          obtain ⟨this, written, different, refers⟩ := touched
          refine ⟨this, written, refers, ?_⟩
          rw [step_given written stepped]
          intro given
          rw [(unaliased this body written active refers).mp given] at different
          cases different
        · rintro ⟨this, written, refers, gone⟩ ⟨_, untouched⟩
          apply untouched
          refine ⟨this, written, ?_, refers⟩
          rw [step_given written stepped] at gone
          by_contra spared
          exact gone ((unaliased this body written active refers).mpr (by simpa using spared))
      emptied := fun this emptied => step_emptied emptied stepped
      swapped := by
        intro this other same
        subst same
        simp only [step] at stepped
        split at stepped
        · rename_i conn conn' present present'
          cases stepped
          exact swap_reference present present'
        · cases stepped }

/-- In every run from any objects, whatever they refer to, each operation keeps to the
discipline exactly if each scoped connection is given the connection that it has already
by those operations alone that leave connections alone. -/
theorem scoped_connection_runs {start final : Program σ} {actions : List (ProgramAction σ)}
    (ran : Runs.run Program.step start actions = some final) :
    Runs.Guarded Program.step
        (fun p a => ∀ p', p.step a = some p' → Lawful p a p') start actions ↔
      Runs.Guarded Program.step Unaliased start actions := by
  apply Runs.guarded_congr _ ran
  intro p a p' stepped
  have only : (∀ next, p.step a = some next → Lawful p a next) ↔ Lawful p a p' := by
    constructor
    · intro all
      exact all p' stepped
    · intro lawful next stepped'
      cases stepped.symm.trans stepped'
      exact lawful
  rw [only]
  cases owning : ownership a with
  | true => exact lawful_iff owning stepped
  | false =>
      obtain ⟨lawful, unaliased⟩ : Lawful p a p' ∧ p.Unaliased a := lawful_of_other owning
      exact ⟨fun _ => unaliased, fun _ => lawful⟩

end Program

/-! ### Runs -/

/-- A scoped connection takes a new connection over and goes out of scope. -/
def scopedRun : List (ProgramAction fun _ : Unit => natSignal) :=
  [.signal () (connectBack 10), .signal () .section, .refer ((), 0),
    .moveConstruct .scopedConnection 0, .destroy 1]

theorem scopedRun_lawful :
    ∃ p : Program fun _ : Unit => natSignal,
      Runs.run Program.step natProgram scopedRun = some p ∧
      (Runs.Guarded Program.step
          (fun p a => ∀ p', p.step a = some p' → Program.Lawful p a p') natProgram scopedRun ↔
        Runs.Guarded Program.step Program.Unaliased natProgram scopedRun) := by
  have ends : (Runs.run Program.step natProgram scopedRun).isSome := by decide +kernel
  obtain ⟨p, ran⟩ := Option.isSome_iff_exists.mp ends
  exact ⟨p, ran, Program.scoped_connection_runs ran⟩

/-- A scoped connection is assigned the connection that it refers to. -/
def assignSame : List (ProgramAction fun _ : Unit => natSignal) :=
  [.signal () (connectBack 10), .signal () .section, .refer ((), 0),
    .copyConstruct .scopedConnection 0]

/-- It still refers to the connection, which is no longer connected. -/
theorem assignSame_not_lawful :
    ∃ p p' : Program fun _ : Unit => natSignal,
      Runs.run Program.step natProgram assignSame = some p ∧
      p.step (.copyAssign 1 0) = some p' ∧
      p.reference 0 = some ((), 0) ∧ p.reference 1 = some ((), 0) ∧
      p'.reference 1 = some ((), 0) ∧
      p.Active ((), 0) ∧ ¬ p'.Active ((), 0) ∧ ¬ Program.Lawful p (.copyAssign 1 0) p' := by
  have before : (Runs.run Program.step natProgram assignSame).map
      (fun p => (p.reference 0, p.reference 1)) = some (some ((), 0), some ((), 0)) := by
    decide +kernel
  have there : (Runs.run Program.step natProgram assignSame).map
      (fun p => (p.alive ((), 0), ((p.signals ()).bodies 0).connected)) = some (true, true) := by
    decide +kernel
  have after : (Runs.run Program.step natProgram (assignSame ++ [.copyAssign 1 0])).map
      (fun p => (p.reference 1, ((p.signals ()).bodies 0).connected)) =
        some (some ((), 0), false) := by
    decide +kernel
  obtain ⟨p, ran, references⟩ := Option.map_eq_some_iff.mp before
  rw [Runs.run_append, ran] at after
  rw [ran] at there
  obtain ⟨p', last, ends⟩ := Option.map_eq_some_iff.mp after
  obtain ⟨_, stepped, same⟩ := Runs.run_cons last
  cases same
  obtain ⟨first, second⟩ := Prod.mk.inj references
  obtain ⟨alive, connected⟩ := Prod.mk.inj (Option.some.inj there)
  obtain ⟨kept, gone⟩ := Prod.mk.inj ends
  have active : p.Active ((), 0) := ⟨alive, connected⟩
  have ended : ¬ p'.Active ((), 0) := by
    rintro ⟨_, still⟩
    rw [gone] at still
    cases still
  refine ⟨p, p', ran, stepped, first, second, kept, active, ended, ?_⟩
  intro lawful
  obtain ⟨this, written, refers, elsewhere⟩ := (lawful.disconnects rfl ((), 0) active).mp ended
  have onto : this = 1 := by
    simp only [Program.overwrites] at written
    split at written
    · exact (Option.some.inj written).symm
    · cases written
  subst onto
  exact elsewhere kept

end Signals2
