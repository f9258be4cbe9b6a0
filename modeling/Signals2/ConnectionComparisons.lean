/-
How connection objects compare.  Both comparisons ask for the bodies first, so an object
whose body is gone compares like one without connection.  Two objects keep comparing
the same as long as the body that compares greater is there, and no longer.
-/

import Signals2.Library.OrderedInsertion
import Signals2.ConnectionBlocks

namespace Signals2

open OrderedInsertion

variable {Name : Type} {σ : Name → SignalTemplate}

namespace Program

variable {p p' : Program σ} {a : ProgramAction σ}

/-! ### The comparisons -/

/-- `connection::operator==`. -/
def equal [DecidableEq Name] (p : Program σ) (this other : ConnectionId) : Bool :=
  p.lock this = p.lock other

/-- Shared pointers are ordered by their control blocks; a null pointer has none, and
none is at address zero. -/
def controlBlock (address : Name × BodyId → Nat) : Option (Name × BodyId) → Nat
  | none => 0
  | some body => address body + 1

/-- `connection::operator<`. -/
def less (address : Name × BodyId → Nat) (p : Program σ) (this other : ConnectionId) : Bool :=
  controlBlock address (p.lock this) < controlBlock address (p.lock other)

/-- The control block of a body that some object refers to has an address of its own. -/
def Addressed (address : Name × BodyId → Nat) (p : Program σ) : Prop :=
  ∀ body other, p.Refers body → p.Refers other → address body = address other → body = other

theorem lock_eq_some {this : ConnectionId} {body : Name × BodyId} :
    p.lock this = some body ↔ p.reference this = some body ∧ p.alive body = true := by
  rw [lock, Option.filter_eq_some_iff]

theorem less_strictWeak (address : Name × BodyId → Nat) (p : Program σ) :
    StrictWeak (p.less address) := by
  unfold less
  exact {
    irrefl := by
      intro this below
      simp at below
    trans := by
      intro first second third left right
      simp only [decide_eq_true_eq] at left right ⊢
      omega
    incomp_trans := by
      intro first second third left right
      simp only [decide_eq_true_eq] at left right ⊢
      omega }

theorem controlBlock_injective {address : Name × BodyId → Nat} (addressed : p.Addressed address)
    {first second : Option (Name × BodyId)} (known : ∀ body, first = some body → p.Refers body)
    (known' : ∀ body, second = some body → p.Refers body)
    (same : controlBlock address first = controlBlock address second) : first = second := by
  cases first with
  | none =>
      cases second with
      | none => rfl
      | some body => cases same
  | some body =>
      cases second with
      | none => cases same
      | some body' =>
          rw [addressed body body' (known body rfl) (known' body' rfl) (Nat.succ.inj same)]

theorem refers_of_lock {this : ConnectionId} (body : Name × BodyId)
    (there : p.lock this = some body) : p.Refers body :=
  ⟨this, (lock_eq_some.mp there).1⟩

/-- Neither is less than the other exactly when they are equal. -/
theorem equal_iff_not_less [DecidableEq Name] {address : Name × BodyId → Nat}
    (addressed : p.Addressed address) (this other : ConnectionId) :
    p.equal this other = true ↔
      p.less address this other = false ∧ p.less address other this = false := by
  simp only [equal, less, decide_eq_true_eq, decide_eq_false_iff_not]
  constructor
  · intro same
    rw [same]
    omega
  · rintro ⟨left, right⟩
    apply controlBlock_injective addressed refers_of_lock refers_of_lock
    omega

/-! ### What a run leaves -/

/-- The objects that an action assigns to, moves from, releases or destroys. -/
def written : ProgramAction σ → List ConnectionId
  | .moveConstruct _ other => [other]
  | .copyAssign this _ => [this]
  | .moveAssign this rhs => [this, rhs]
  | .baseCopyAssign this _ => [this]
  | .baseMoveAssign this rhs => [this, rhs]
  | .swap this other => [this, other]
  | .release this => [this]
  | .destroy this => [this]
  | _ => []

/-- A body that is gone stays so. -/
structure Lasting (p p' : Program σ) : Prop where
  made : ∀ name, (p.signals name).nextBody ≤ (p'.signals name).nextBody
  gone : ∀ body, body.2 < (p.signals body.1).nextBody → p'.alive body = true →
    p.alive body = true

theorem Lasting.trans {first second third : Program σ} (left : Lasting first second)
    (right : Lasting second third) : Lasting first third where
  made name := Nat.le_trans (left.made name) (right.made name)
  gone body below alive :=
    left.gone body below (right.gone body (Nat.lt_of_lt_of_le below (left.made body.1)) alive)

theorem copyAssign_object {this rhs other : ConnectionId} (apart : other ≠ this) :
    (p.connectionCopyAssign this rhs).object other = p.object other := by
  unfold connectionCopyAssign
  split
  · rfl
  · exact setReference_other apart _

theorem moveAssign_object {this rhs other : ConnectionId} (apart : other ≠ this)
    (apart' : other ≠ rhs) : (p.connectionMoveAssign this rhs).object other = p.object other := by
  unfold connectionMoveAssign
  split
  · rfl
  · rw [setReference_other apart', setReference_other apart]

theorem remove_other {this other : ConnectionId} (apart : other ≠ this) :
    (p.remove this).object other = p.object other := by
  simp [object, remove, List.getElem?_set_ne (Ne.symm apart)]

variable [DecidableEq Name]

theorem disconnect_connections {this : ConnectionId} (done : p.disconnect this = some p') :
    p'.connections = p.connections := by
  unfold disconnect at done
  split at done
  · cases done
    rfl
  · obtain ⟨w, _, rfl⟩ := Option.map_eq_some_iff.mp done
    rfl

theorem step_object (linked : p.Linked) (stepped : p.step a = some p') {this : ConnectionId}
    {conn : ConnectionObject Name} (present : p.object this = some conn)
    (aside : this ∉ written a) : p'.object this = some conn := by
  by_cases mine : ofBlock a = true
  · rw [object_congr (step_reblocked linked mine stepped).connections]
    exact present
  cases a with
  | signal name act =>
      simp only [step] at stepped
      split at stepped
      · cases stepped
      · obtain ⟨w, _, rfl⟩ := Option.map_eq_some_iff.mp stepped
        exact present
  | construct type =>
      cases stepped
      exact newConnection_object present _ _
  | refer body =>
      simp only [step] at stepped
      split at stepped
      · cases stepped
        exact newConnection_object present _ _
      · cases stepped
  | copyConstruct type other =>
      obtain ⟨_, _, rfl⟩ := Option.map_eq_some_iff.mp stepped
      exact newConnection_object present _ _
  | moveConstruct type other =>
      obtain ⟨_, _, rfl⟩ := Option.map_eq_some_iff.mp stepped
      rw [connectionMoveConstruct, setReference_other (List.ne_of_not_mem_cons aside)]
      exact newConnection_object present _ _
  | copyAssign target rhs =>
      have apart := List.ne_of_not_mem_cons aside
      obtain ⟨_, _, _, _, ends⟩ := step_copyAssign stepped
      rcases ends with ⟨_, rfl⟩ | ⟨_, disconnected, done, rfl⟩
      · rw [copyAssign_object apart]
        exact present
      · rw [copyAssign_object apart, object_congr (disconnect_connections done)]
        exact present
  | moveAssign target rhs =>
      have apart := List.ne_of_not_mem_cons aside
      have apart' := List.ne_of_not_mem_cons (List.not_mem_of_not_mem_cons aside)
      obtain ⟨_, _, _, _, ends⟩ := step_moveAssign stepped
      rcases ends with ⟨_, rfl⟩ | ⟨_, rfl⟩ | ⟨_, _, disconnected, done, rfl⟩
      · rw [moveAssign_object apart apart']
        exact present
      · exact present
      · rw [moveAssign_object apart apart', object_congr (disconnect_connections done)]
        exact present
  | baseCopyAssign target rhs =>
      obtain ⟨_, _, _, _, rfl⟩ := step_baseCopyAssign stepped
      rw [copyAssign_object (List.ne_of_not_mem_cons aside)]
      exact present
  | baseMoveAssign target rhs =>
      have apart := List.ne_of_not_mem_cons aside
      have apart' := List.ne_of_not_mem_cons (List.not_mem_of_not_mem_cons aside)
      obtain ⟨_, _, _, _, rfl⟩ := step_baseMoveAssign stepped
      rw [moveAssign_object apart apart']
      exact present
  | swap target other =>
      have apart := List.ne_of_not_mem_cons aside
      have apart' := List.ne_of_not_mem_cons (List.not_mem_of_not_mem_cons aside)
      simp only [step] at stepped
      split at stepped
      · cases stepped
        rw [swap, setReference_other apart', setReference_other apart]
        exact present
      · cases stepped
  | release target =>
      obtain ⟨_, _, rfl⟩ := step_release stepped
      rw [release, setReference_other (List.ne_of_not_mem_cons aside)]
      exact newConnection_object present _ _
  | disconnect target =>
      obtain ⟨_, _, done⟩ := Option.bind_eq_some_iff.mp stepped
      rw [object_congr (disconnect_connections done)]
      exact present
  | destroy target =>
      have apart := List.ne_of_not_mem_cons aside
      rcases step_destroy stepped with ⟨_, rfl⟩ | ⟨_, disconnected, done, rfl⟩
      · rw [remove_other apart]
        exact present
      · rw [remove_other apart, object_congr (disconnect_connections done)]
        exact present
  | _ => exact absurd rfl mine

theorem step_lasting (linked : p.Linked) (stepped : p.step a = some p') : Lasting p p' := by
  cases mine : ofBlock a with
  | true =>
      have reblocked := step_reblocked linked mine stepped
      constructor
      · intro name
        exact Nat.le_of_eq (reblocked.signals name).nextBody.symm
      · intro body _ alive
        rw [Program.alive, (reblocked.signals body.1).alive body.2] at alive
        exact alive
  | false =>
      have unblocked := step_unblocked mine stepped
      constructor
      · intro name
        rcases unblocked.signals name with same | ⟨act, _, taken⟩
        · exact Nat.le_of_eq (congrArg (fun w : World (σ name) => w.nextBody) same.symm)
        · exact (World.step_effect taken).2.nextBody_le
      · intro body below alive
        rcases unblocked.signals body.1 with same | ⟨act, other, taken⟩
        · rw [Program.alive, same] at alive
          exact alive
        · rcases World.step_alive other taken alive with before | new
          · exact before
          · rw [new] at below
            exact absurd below (Nat.lt_irrefl _)

theorem run_lasting {actions : List (ProgramAction σ)} (linked : p.Linked)
    (ran : Runs.run Program.step p actions = some p') : Lasting p p' := by
  have reflexive (state : Program σ) : Lasting state state :=
    ⟨fun _ => Nat.le_refl _, fun _ _ alive => alive⟩
  have guarded : Runs.Guarded Program.step (fun _ _ => True) p actions :=
    .of_forall fun _ _ _ => trivial
  exact Runs.run_relation reflexive (fun _ _ _ => Lasting.trans)
    (fun _ _ _ holds _ stepped => (step_table holds stepped).2)
    (fun _ _ _ holds _ stepped => step_lasting holds stepped) linked guarded ran

theorem run_object {actions : List (ProgramAction σ)} (linked : p.Linked)
    (ran : Runs.run Program.step p actions = some p') {this : ConnectionId}
    {conn : ConnectionObject Name} (present : p.object this = some conn)
    (aside : ∀ action ∈ actions, this ∉ written action) : p'.object this = some conn := by
  induction actions generalizing p with
  | nil =>
      cases ran
      exact present
  | cons action rest ih =>
      obtain ⟨next, stepped, later⟩ := Runs.run_cons ran
      have kept := step_object linked stepped present (aside action List.mem_cons_self)
      exact ih (step_table linked stepped).2 later kept fun other member =>
        aside other (List.mem_cons_of_mem action member)

/-! ### Whole runs -/

/-- The comparisons of two objects answer later what they answer now, and do not take
different connections for equal. -/
structure SameAnswers (address : Name × BodyId → Nat) (p p' : Program σ)
    (this other : ConnectionId) : Prop where
  apart : p.reference this ≠ p.reference other → p'.equal this other = false
  equal : p'.equal this other = p.equal this other
  less : p'.less address this other = p.less address this other

omit [DecidableEq Name] in
/-- The body that `this` refers to is still there later, and the one that `other` refers
to is gone already or its control block has the smaller address. -/
def Outlasts (address : Name × BodyId → Nat) (p p' : Program σ) (this other : ConnectionId) :
    Prop :=
  ∃ body, p.reference this = some body ∧ p'.alive body = true ∧
    ∀ body', p.reference other = some body' → p.alive body' = true → address body' < address body

omit [DecidableEq Name] in
theorem lock_congr {this other : ConnectionId} (same : p.reference this = p.reference other) :
    p.lock this = p.lock other := by
  rw [lock, lock, same]

omit [DecidableEq Name] in
/-- Later the pointer to the body is what it was, or null. -/
theorem Lasting.lock_kept (lasting : Lasting p p') (linked : p.Linked)
    (address : Name × BodyId → Nat) {this : ConnectionId}
    (kept : p'.reference this = p.reference this) :
    controlBlock address (p'.lock this) = controlBlock address (p.lock this) ∨
      controlBlock address (p'.lock this) = 0 := by
  cases later : p'.lock this with
  | none => exact .inr rfl
  | some body =>
      obtain ⟨target, alive⟩ := lock_eq_some.mp later
      rw [kept] at target
      have before := lasting.gone body (linked.known body ⟨this, target⟩) alive
      rw [lock_eq_some.mpr ⟨target, before⟩]
      exact .inl rfl

omit [DecidableEq Name] in
theorem outlasts_iff {address : Name × BodyId → Nat} {this other : ConnectionId}
    (kept : p'.reference this = p.reference this) :
    Outlasts address p p' this other ↔
      controlBlock address (p.lock other) < controlBlock address (p'.lock this) := by
  constructor
  · rintro ⟨body, target, alive, smaller⟩
    rw [lock_eq_some.mpr ⟨kept.trans target, alive⟩]
    cases there : p.lock other with
    | none => exact Nat.zero_lt_succ _
    | some body' =>
        obtain ⟨target', alive'⟩ := lock_eq_some.mp there
        exact Nat.succ_lt_succ (smaller body' target' alive')
  · intro below
    cases later : p'.lock this with
    | none =>
        rw [later] at below
        exact absurd below (Nat.not_lt_zero _)
    | some body =>
        obtain ⟨target, alive⟩ := lock_eq_some.mp later
        refine ⟨body, kept.symm.trans target, alive, ?_⟩
        intro body' target' alive'
        rw [later, lock_eq_some.mpr ⟨target', alive'⟩] at below
        exact Nat.lt_of_succ_lt_succ below

theorem Lasting.sameAnswers_iff (lasting : Lasting p p') (linked : p.Linked)
    {address : Name × BodyId → Nat} (addressed : p.Addressed address) {this other : ConnectionId}
    (kept : p'.reference this = p.reference this)
    (kept' : p'.reference other = p.reference other) :
    SameAnswers address p p' this other ↔ p.reference this = p.reference other ∨
      Outlasts address p p' this other ∨ Outlasts address p p' other this := by
  by_cases same : p.reference this = p.reference other
  · have now := lock_congr same
    have later : p'.lock this = p'.lock other := lock_congr (by rw [kept, kept', same])
    constructor
    · intro _
      exact .inl same
    · intro _
      exact {
        apart := fun different => absurd same different
        equal := by simp [equal, now, later]
        less := by simp [less, now, later] }
  · rw [outlasts_iff kept, outlasts_iff kept']
    have left := lasting.lock_kept linked address kept
    have right := lasting.lock_kept linked address kept'
    -- objects that refer to different connections compare equal only as null pointers
    have nulls : p.lock this = p.lock other → controlBlock address (p.lock this) = 0 := by
      intro equal
      cases there : p.lock this with
      | none => rfl
      | some body =>
          have target := (lock_eq_some.mp there).1
          have target' := (lock_eq_some.mp (equal.symm.trans there)).1
          exact absurd (target.trans target'.symm) same
    have now : p.lock this = p.lock other ↔
        controlBlock address (p.lock this) = controlBlock address (p.lock other) := by
      constructor
      · intro equal
        rw [equal]
      · exact controlBlock_injective addressed refers_of_lock refers_of_lock
    have later : p'.lock this = p'.lock other ↔
        controlBlock address (p'.lock this) = controlBlock address (p'.lock other) := by
      constructor
      · intro equal
        rw [equal]
      · apply controlBlock_injective addressed
        · intro body there
          exact ⟨this, kept.symm.trans (lock_eq_some.mp there).1⟩
        · intro body there
          exact ⟨other, kept'.symm.trans (lock_eq_some.mp there).1⟩
    constructor
    · rintro ⟨apart, equal, less⟩
      have apart := apart same
      simp only [Program.equal, Program.less, decide_eq_false_iff_not, decide_eq_decide, now,
        later] at apart equal less
      omega
    · intro outlasts
      have outlasts := outlasts.resolve_left same
      exact {
        apart := by
          intro _
          simp only [Program.equal, decide_eq_false_iff_not, later]
          omega
        equal := by
          simp only [Program.equal, decide_eq_decide, now, later]
          have gone := fun equal => nulls (now.mpr equal)
          omega
        less := by
          simp only [Program.less, decide_eq_decide]
          omega }

/-- In every run of any number of signals and for any two objects that it does not write
to: the comparisons answer the same all the time, and false for different connections,
exactly while the objects refer to the same connection or the body that compares greater
is there.  At every moment they are a strict weak order and its equivalence. -/
theorem connection_comparison_runs {combiner : ∀ name, (σ name).Combiner}
    {defaultCompare groupCompare : ∀ name, (σ name).Group → (σ name).Group → Bool}
    {owners : Name → ObjectId → Nat} {first later : List (ProgramAction σ)}
    {address : Name × BodyId → Nat}
    (ran : Runs.run Program.step (Program.construct combiner defaultCompare groupCompare owners)
      first = some p)
    (ran' : Runs.run Program.step p later = some p') (addressed : p.Addressed address)
    {this other : ConnectionId} (present : p.object this ≠ none) (present' : p.object other ≠ none)
    (unwritten : ∀ action ∈ later, this ∉ written action ∧ other ∉ written action) :
    (SameAnswers address p p' this other ↔ p.reference this = p.reference other ∨
      Outlasts address p p' this other ∨ Outlasts address p p' other this) ∧
    StrictWeak (p.less address) ∧
    ∀ x y, p.equal x y = true ↔ p.less address x y = false ∧ p.less address y x = false := by
  have linked := linked_of_run ran
  have kept (x : ConnectionId) (there : p.object x ≠ none)
      (aside : ∀ action ∈ later, x ∉ written action) : p'.reference x = p.reference x := by
    obtain ⟨conn, object⟩ := Option.ne_none_iff_exists'.mp there
    rw [reference_of_object object, reference_of_object (run_object linked ran' object aside)]
  have lasting := run_lasting linked ran'
  refine ⟨lasting.sameAnswers_iff linked addressed ?_ ?_, less_strictWeak address p, ?_⟩
  · exact kept this present fun action member => (unwritten action member).1
  · exact kept other present' fun action member => (unwritten action member).2
  · intro x y
    exact equal_iff_not_less addressed x y

end Program

/-- Two connections and an object for each. -/
def twoConnections : List (ProgramAction fun _ : Unit => natSignal) :=
  [.signal () (connectBack 10), .signal () .section, .signal () (connectBack 11),
    .signal () .section, .signal () .section, .refer ((), 0), .refer ((), 1)]

/-- One of the connections ends, the operation gives up slot and body, and the next connect
sweeps the body. -/
def endConnection (this : ConnectionId) : List (ProgramAction fun _ : Unit => natSignal) :=
  [.disconnect this, .signal () (.release 1), .signal () (.release 0),
    .signal () (connectBack 12), .signal () .section, .signal () .section, .signal () .section]

theorem snd_addressed (p : Program fun _ : Unit => natSignal) : p.Addressed Prod.snd :=
  fun _ _ _ _ same => Prod.ext rfl same

theorem endConnection_unwritten (this : ConnectionId) {x : ConnectionId} :
    ∀ action ∈ endConnection this, x ∉ Program.written action := by
  intro action member
  simp only [endConnection, List.mem_cons, List.not_mem_nil, or_false] at member
  rcases member with rfl | rfl | rfl | rfl | rfl | rfl | rfl <;> exact List.not_mem_nil

theorem endConnection_compared :
    ∃ p p' : Program fun _ : Unit => natSignal,
      Runs.run Program.step natProgram twoConnections = some p ∧
      Runs.run Program.step p (endConnection 0) = some p' ∧
      (Program.SameAnswers Prod.snd p p' 0 1 ↔ p.reference 0 = p.reference 1 ∨
        Program.Outlasts Prod.snd p p' 0 1 ∨ Program.Outlasts Prod.snd p p' 1 0) ∧
      StrictWeak (p.less Prod.snd) ∧
      ∀ x y, p.equal x y = true ↔
        p.less Prod.snd x y = false ∧ p.less Prod.snd y x = false := by
  have there : (Runs.run Program.step natProgram twoConnections).map
      (fun p => ((p.object 0).isSome, (p.object 1).isSome)) = some (true, true) := by
    decide +kernel
  have ends : (Runs.run Program.step natProgram (twoConnections ++ endConnection 0)).isSome := by
    decide +kernel
  obtain ⟨p, ran, objects⟩ := Option.map_eq_some_iff.mp there
  rw [Runs.run_append, ran, Option.bind_some] at ends
  obtain ⟨p', ran'⟩ := Option.isSome_iff_exists.mp ends
  obtain ⟨left, right⟩ := Prod.mk.inj objects
  refine ⟨p, p', ran, ran', Program.connection_comparison_runs (natProgram_start ▸ ran) ran'
    (snd_addressed p) ?_ ?_ ?_⟩
  · exact Option.isSome_iff_ne_none.mp left
  · exact Option.isSome_iff_ne_none.mp right
  · intro action member
    exact ⟨endConnection_unwritten 0 action member, endConnection_unwritten 0 action member⟩

/-- Two different connections end one after the other.  The order of their objects turns
round with the first end, and after the second they compare equal. -/
theorem endConnection_not_same :
    ∃ p p' p'' : Program fun _ : Unit => natSignal,
      Runs.run Program.step natProgram twoConnections = some p ∧
      Runs.run Program.step p (endConnection 1) = some p' ∧
      Runs.run Program.step p' (endConnection 0) = some p'' ∧
      p.reference 0 = some ((), 0) ∧ p.reference 1 = some ((), 1) ∧
      p.less Prod.snd 0 1 = true ∧ p'.less Prod.snd 0 1 = false ∧
      p.equal 0 1 = false ∧ p''.equal 0 1 = true ∧
      ¬ Program.SameAnswers Prod.snd p p' 0 1 ∧ ¬ Program.SameAnswers Prod.snd p p'' 0 1 := by
  have first : (Runs.run Program.step natProgram twoConnections).map
      (fun p => (p.reference 0, p.reference 1)) = some (some ((), 0), some ((), 1)) := by
    decide +kernel
  have now : (Runs.run Program.step natProgram twoConnections).map
      (fun p => (p.less Prod.snd 0 1, p.equal 0 1)) = some (true, false) := by
    decide +kernel
  have second : (Runs.run Program.step natProgram (twoConnections ++ endConnection 1)).map
      (fun p => p.less Prod.snd 0 1) = some false := by
    decide +kernel
  have third : (Runs.run Program.step natProgram
      (twoConnections ++ (endConnection 1 ++ endConnection 0))).map (fun p => p.equal 0 1) =
        some true := by
    decide +kernel
  obtain ⟨p, ran, references⟩ := Option.map_eq_some_iff.mp first
  rw [ran] at now
  rw [Runs.run_append, ran, Option.bind_some] at second third
  obtain ⟨p', ran', turned⟩ := Option.map_eq_some_iff.mp second
  rw [Runs.run_append, ran', Option.bind_some] at third
  obtain ⟨p'', ran'', equal⟩ := Option.map_eq_some_iff.mp third
  obtain ⟨left, right⟩ := Prod.mk.inj references
  obtain ⟨before, different⟩ := Prod.mk.inj (Option.some.inj now)
  refine ⟨p, p', p'', ran, ran', ran'', left, right, before, turned, different, equal, ?_, ?_⟩
  · intro same
    have kept := same.less
    rw [before, turned] at kept
    cases kept
  · intro same
    have kept := same.equal
    rw [equal, different] at kept
    cases kept

end Signals2
