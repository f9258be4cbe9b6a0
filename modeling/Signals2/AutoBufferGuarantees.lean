/-
What an operation leaves when an allocation, a construction or an assignment of an element
throws.
-/

import Signals2.InsertionRequests

namespace Signals2

open FalliblePrograms FalliblePrograms.Program AutoBuffer

variable {t : BufferTemplate} {w : Others t} {lists : Contents t} {b r : Nat}
variable {o q : AutoBuffer} {list other : List t.T} {m m' : BufferMemory t}

/-- The buffers are those of the lists, element by element and block by block, and whatever
is done to them next does not go wrong. -/
structure Usable (lists : Contents t) (m : BufferMemory t) : Prop where
  exact_ : Exact lists m
  access : ∀ b list i, lists (.named b) = some list → ∀ inside : i < list.length,
    subscript (.named b) i m = .returned list[i] m
  further : ∀ (op : BufferOp t) lists', op.model lists = some lists' →
    (∀ b r, op = .swap b r →
      t.traits.trivialAssign = true → t.traits.trivialDestructor = true) →
    ∀ throws f, op.perform (m.failing throws) ≠ .failed f

theorem Follows.usable {throws : Nat → Bool} (follows : Follows throws lists m)
    (absent : lists .temporary = none) : Usable lists m where
  exact_ := follows.exact
  access b list i entry inside := by
    obtain ⟨w, stores, rfl, _⟩ := follows
    obtain ⟨o, _, keeps⟩ := stores.keeps entry
    exact subscript_eq keeps inside
  further op lists' enabled lawful throws' f := by
    obtain ⟨w, stores, rfl, rfl⟩ := follows.failing throws'
    exact (BufferOp.perform_spec lawful stores absent enabled).not_failed

/-- The operations that may throw and leave the buffer. -/
inductive FallibleOp (t : BufferTemplate) where
  | assign (b r : Nat)
  | reserve (b n : Nat)
  | pushBackDefault (b : Nat)
  | pushBack (b : Nat) (x : t.T)
  | pushBackRange (b : Nat) (pointers : Bool) (values : List t.T)
  | shrinkToFit (b : Nat)
  | insert (b before : Nat) (request : Insertion t)

namespace FallibleOp

def perform : FallibleOp t → Buffered t Unit
  | .assign b r => AutoBuffer.assign (.named b) (.named r)
  | .reserve b n => AutoBuffer.reserve (.named b) n
  | .pushBackDefault b => AutoBuffer.pushBackDefault (.named b)
  | .pushBack b x => AutoBuffer.pushBack (.named b) x
  | .pushBackRange b pointers values => AutoBuffer.pushBackRange (.named b) pointers values
  | .shrinkToFit b => AutoBuffer.shrinkToFit (.named b)
  | .insert b before request => do
      let _ ← request.perform (.named b) before
      pure ()

def target : FallibleOp t → Nat
  | .assign b _ => b
  | .reserve b _ => b
  | .pushBackDefault b => b
  | .pushBack b _ => b
  | .pushBackRange b _ _ => b
  | .shrinkToFit b => b
  | .insert b _ _ => b

/-- The other buffer is there, and the position is one of the buffer. -/
def Enabled (lists : Contents t) (list : List t.T) : FallibleOp t → Prop
  | .assign _ r => (lists (.named r)).isSome
  | .insert _ before _ => before ≤ list.length
  | _ => True

/-- The buffer has some elements; the others have what they had. -/
def Sound (op : FallibleOp t) (lists : Contents t) (m : BufferMemory t) : Prop :=
  ∃ list, Usable (Function.update lists (.named op.target) (some list)) m

/-- When `reserve` throws it has changed neither the elements nor the objects. -/
def Restored (lists : Contents t) (m m' : BufferMemory t) : FallibleOp t → Prop
  | .reserve _ _ => Exact lists m' ∧ m'.objects = m.objects
  | _ => True

/-- Whatever throws, the buffers are usable afterwards. -/
def Guarantees (op : FallibleOp t) (lists : Contents t) (m : BufferMemory t) : Prop :=
  ∀ throws, Spec op.perform (m.failing throws) (fun _ m' => op.Sound lists m')
    fun m' => op.Sound lists m' ∧ op.Restored lists m m'

/-- No assignment needs another block, and no sum of sizes is wrapped around. -/
def Harmless (o : AutoBuffer) (m : BufferMemory t) : FallibleOp t → Prop
  | .assign b r => b = r ∨ ∀ q, m.objects (.named r) = some q → q.size ≤ o.capacity
  | .insert _ _ request => request.Counted o
  | _ => True

variable {op : FallibleOp t}

theorem sound_of_keeps (absent : w.lists .temporary = none)
    (keeps : Keeps w (.named op.target) o list m) : op.Sound w.lists m := by
  refine ⟨list, keeps.follows.usable ?_⟩
  rw [Function.update_of_ne (temporary_ne op.target)]
  exact absent

theorem sound_of_leaves (absent : w.lists .temporary = none)
    (leaves : Leaves w (.named op.target) m) : op.Sound w.lists m := by
  obtain ⟨_, o, list, keeps⟩ := leaves
  exact sound_of_keeps absent keeps

theorem guaranteed (absent : w.lists .temporary = none) {before : BufferMemory t}
    (nothing : ∀ m', op.Restored w.lists before m')
    (spec : Spec op.perform m (fun _ m' => ∃ o' list', Keeps w (.named op.target) o' list' m')
      (Leaves w (.named op.target))) :
    Spec op.perform m (fun _ m' => op.Sound w.lists m')
      fun m' => op.Sound w.lists m' ∧ op.Restored w.lists before m' := by
  refine spec.mono ?_ fun m' leaves => ⟨sound_of_leaves absent leaves, nothing m'⟩
  rintro _ m' ⟨o', list', keeps⟩
  exact sound_of_keeps absent keeps

/-! ### What is harmless -/

theorem assign_guaranteed {throws : Nat → Bool} (follows : Follows throws lists m)
    (entry : lists (.named b) = some list) (source : lists (.named r) = some other)
    (object : m.objects (.named b) = some o) (harmless : (FallibleOp.assign b r).Harmless o m) :
    ∃ w : Others t, w.lists = lists ∧ w.throws = throws ∧
      Spec (AutoBuffer.assign (.named b) (.named r)) m
        (fun _ m' => ∃ o' list', Keeps w (.named b) o' list' m') (Leaves w (.named b)) := by
  obtain ⟨w, stores, rfl, rfl⟩ := follows
  refine ⟨w, rfl, rfl, ?_⟩
  by_cases self : b = r
  · subst self
    obtain ⟨o', _, keeps⟩ := stores.keeps entry
    exact (assign_self keeps).mono (fun _ m' keeps' => ⟨o', list, keeps'⟩) fun _ => id
  · obtain ⟨o', q, there, pair⟩ := BufferOp.keeps_pair stores entry source
    have same := pair.there
    rw [object, Option.some.injEq] at same
    subst same
    have right := pair.turn (BufferOp.named_ne self)
    have fits : other.length ≤ o.capacity := by
      rw [← right.size]
      exact harmless.resolve_left self q right.there
    refine (assign_spec (BufferOp.named_ne self) pair).mono ?_ ?_
    · rintro _ m' ⟨o'', keeps'⟩
      rw [Others.put_same there source] at keeps'
      exact ⟨o'', other, keeps'⟩
    · intro m' fails
      have leaves := fails.1 fits
      rwa [Others.put_same there source] at leaves

/-- An operation that on an exception leaves the other buffers as they were, whatever they
are and wherever it strikes. -/
theorem guarantees_of_spec {throws : Nat → Bool} (follows : Follows throws lists m)
    (absent : lists .temporary = none) (entry : lists (.named op.target) = some list)
    (object : m.objects (.named op.target) = some o)
    (nothing : ∀ m', op.Restored lists m m')
    (spec : ∀ (w : Others t) (m₁ : BufferMemory t), w.lists = lists →
      Keeps w (.named op.target) o list m₁ →
      Spec op.perform m₁ (fun _ m' => ∃ o' list', Keeps w (.named op.target) o' list' m')
        (Leaves w (.named op.target))) : op.Guarantees lists m := by
  intro throws'
  obtain ⟨w, rfl, rfl, keeps⟩ := (follows.failing throws').keeps entry object
  exact guaranteed absent nothing (spec w _ rfl keeps)

theorem guarantees_reserve {throws : Nat → Bool} {n : Nat} (follows : Follows throws lists m)
    (absent : lists .temporary = none) (entry : lists (.named b) = some list)
    (object : m.objects (.named b) = some o) : (FallibleOp.reserve b n).Guarantees lists m := by
  intro throws'
  obtain ⟨w, rfl, rfl, keeps⟩ := (follows.failing throws').keeps entry object
  refine (reserve_spec keeps n).mono ?_ ?_
  · rintro _ m' ⟨p, keeps'⟩
    exact sound_of_keeps absent keeps'
  · rintro m' ⟨_, keeps'⟩
    have exact_ := keeps'.follows.exact
    rw [← entry, Function.update_eq_self] at exact_
    exact ⟨sound_of_keeps absent keeps', exact_, keeps.objects_eq keeps'⟩

theorem guarantees_of_harmless {throws : Nat → Bool} (follows : Follows throws lists m)
    (absent : lists .temporary = none) (entry : lists (.named op.target) = some list)
    (object : m.objects (.named op.target) = some o) (enabled : op.Enabled lists list)
    (harmless : op.Harmless o m) : op.Guarantees lists m := by
  cases op with
  | assign b r =>
      intro throws'
      obtain ⟨other, source⟩ := Option.isSome_iff_exists.mp enabled
      obtain ⟨w, rfl, rfl, spec⟩ :=
        assign_guaranteed (follows.failing throws') entry source object harmless
      exact guaranteed absent (fun _ => trivial) spec
  | reserve b n => exact guarantees_reserve follows absent entry object
  | pushBackDefault b =>
      refine guarantees_of_spec follows absent entry object (fun _ => trivial) ?_
      intro w m₁ _ keeps
      exact (pushBackDefault_spec keeps).mono
        (fun _ m' ended => ended.imp fun _ keeps' => ⟨_, keeps'⟩) fun _ => id
  | pushBack b x =>
      refine guarantees_of_spec follows absent entry object (fun _ => trivial) ?_
      intro w m₁ _ keeps
      exact (pushBack_spec keeps x).mono
        (fun _ m' ended => ended.imp fun _ keeps' => ⟨_, keeps'⟩) fun _ => id
  | pushBackRange b pointers values =>
      refine guarantees_of_spec follows absent entry object (fun _ => trivial) ?_
      intro w m₁ _ keeps
      exact (pushBackRange_spec keeps pointers values).mono
        (fun _ m' ended => ended.imp fun _ keeps' => ⟨_, keeps'⟩) fun _ => id
  | shrinkToFit b =>
      refine guarantees_of_spec follows absent entry object (fun _ => trivial) ?_
      intro w m₁ _ keeps
      exact (shrinkToFit_spec keeps).mono
        (fun _ m' ended => ended.imp fun _ keeps' => ⟨_, keeps'⟩)
        fun m' thrown => ⟨thrown.1, o, list, thrown.2⟩
  | insert b before request =>
      refine guarantees_of_spec follows absent entry object (fun _ => trivial) ?_
      rintro w m₁ rfl keeps
      refine (Insertion.perform_placed (Ne.symm (temporary_ne b)) absent keeps enabled
        harmless).bind ?_ fun _ => id
      rintro position m' ⟨o', shifted, keeps', _⟩
      exact ⟨o', _, keeps'⟩

/-! ### What is not -/

/-- The first block that is asked for is refused. -/
theorem allocate_refused {name : BufferName} {c : Nat} (large : t.N < c)
    (refused : ∀ n, m.throws n = true) :
    AutoBuffer.allocate name c m = .thrown { m with ticks := m.ticks + 1 } := by
  have thrown : mayThrow m = .thrown { m with ticks := m.ticks + 1 } := by
    simp only [mayThrow, refused, if_true]
  rw [AutoBuffer.allocate, if_pos large, bind_of_thrown thrown]

/-- The old storage has been given back when the new one is refused. -/
theorem assign_refused {b r : BufferName} (apart : b ≠ r)
    (keeps : Keeps (w.put r q other) b o list m) (more : o.capacity < other.length)
    (refused : ∀ n, w.throws n = true) :
    ∃ m', AutoBuffer.assign b r m = .thrown m' ∧ m'.objects b = some { o with buffer := none } := by
  have right : Keeps (w.put b o list) r q other m := keeps.turn apart
  have size := right.size
  have mine := keeps.size
  have fits := keeps.fits
  have least := keeps.least
  have longer : ¬ q.size ≤ o.size := by omega
  have larger : ¬ q.size ≤ o.capacity := by omega
  have object := keeps.object
  obtain ⟨l, storage, keeping⟩ := keeps
  have destroyed : Spec (autoBufferDestroy b) m _ fun _ => False :=
    autoBufferDestroy_spec keeping.shows keeping.housed
  obtain ⟨_, m₁, outcome₁, shows₁⟩ := destroyed.returned
  have nulled : Spec (setObject b { o with buffer := none }) m₁ _ fun _ => False :=
    setObject_spec shows₁ _
  obtain ⟨_, m₂, outcome₂, shows₂⟩ := nulled.returned
  have still : ∀ n, m₂.throws n = true := by
    intro n
    rw [shows₂.throws, Layout.setObject, Layout.release_throws, Layout.setLive, keeping.throws]
    exact refused n
  have large : t.N < q.size := by omega
  refine ⟨{ m₂ with ticks := m₂.ticks + 1 }, ?_, ?_⟩
  · rw [AutoBuffer.assign, if_neg apart, bind_of_returned object, bind_of_returned right.object,
      bind_of_returned right.readAll, if_neg longer, if_neg larger]
    apply bind_of_thrown
    rw [bind_of_returned outcome₁, bind_of_returned outcome₂]
    exact bind_of_thrown (allocate_refused large still)
  · change m₂.objects b = _
    rw [shows₂.objects]
    exact Function.update_self _ _ _

/-- A buffer without a storage is not one of any list. -/
theorem not_sound_of_null (there : m.objects (.named op.target) = some o) (null : o.buffer = none) :
    ¬ op.Sound lists m := by
  rintro ⟨list, usable⟩
  obtain ⟨o', storage, object, _, buffer, _⟩ :=
    usable.exact_.buffers _ list (Function.update_self _ _ _)
  rw [there, Option.some.injEq] at object
  rw [← object, null] at buffer
  cases buffer

theorem not_guarantees_assign {throws : Nat → Bool} (follows : Follows throws lists m)
    (entry : lists (.named b) = some list) (source : lists (.named r) = some other)
    (object : m.objects (.named b) = some o)
    (harmful : ¬ (FallibleOp.assign b r).Harmless o m) :
    ¬ (FallibleOp.assign b r).Guarantees lists m := by
  intro guarantees
  unfold Harmless at harmful
  push Not at harmful
  obtain ⟨different, q, there, more⟩ := harmful
  obtain ⟨w, stores, rfl, plan⟩ := follows.failing fun _ => true
  obtain ⟨o', q', there', pair⟩ := BufferOp.keeps_pair stores entry source
  have apart := BufferOp.named_ne different
  have right := pair.turn apart
  have same : o = o' := Option.some.inj (object.symm.trans pair.there)
  have same' : q = q' := Option.some.inj (there.symm.trans right.there)
  subst same same'
  rw [right.size] at more
  have refused : ∀ n, w.throws n = true := fun n => congrFun plan n
  obtain ⟨m', outcome, null⟩ := assign_refused apart pair more refused
  have left := (guarantees fun _ => true).of_thrown outcome
  exact not_sound_of_null null rfl left.1

/-- What an exception leaves is sound just when no other block is needed to assign, and no sum
of sizes is wrapped around. -/
theorem guarantees_iff {throws : Nat → Bool} (follows : Follows throws lists m)
    (absent : lists .temporary = none) (entry : lists (.named op.target) = some list)
    (object : m.objects (.named op.target) = some o) (enabled : op.Enabled lists list) :
    op.Guarantees lists m ↔ op.Harmless o m := by
  constructor
  · intro guarantees
    by_contra harmful
    cases op with
    | assign b r =>
        obtain ⟨other, source⟩ := Option.isSome_iff_exists.mp enabled
        exact not_guarantees_assign follows entry source object harmful guarantees
    | insert b before request =>
        have calm := guarantees fun _ => false
        obtain ⟨w, rfl, plan, keeps⟩ := (follows.failing fun _ => false).keeps entry object
        have quiet := Others.quiet plan
        obtain ⟨f, failed⟩ := Insertion.perform_overrun keeps quiet harmful
        exact calm.not_failed (bind_of_failed failed)
    | reserve | pushBackDefault | pushBack | pushBackRange | shrinkToFit =>
        exact harmful trivial
  · exact guarantees_of_harmless follows absent entry object enabled

theorem insert_guaranteed :
    ∃ m lists, BufferOp.performAll threeNumbersOps (BufferMemory.start sampleBuffer fun _ => false) =
        .returned () m ∧
      (FallibleOp.insert 0 1 (.one Insertion.seven)).Guarantees lists m := by
  obtain ⟨m, lists, outcome, follows, entry, absent⟩ := threeNumbers_follow
  obtain ⟨o, _, object, _⟩ := follows.exact.buffers _ _ entry
  have inside : 1 ≤ threeNumbers.length := by decide
  have sound : (FallibleOp.insert 0 1 (.one Insertion.seven)).Guarantees lists m ↔ _ :=
    guarantees_iff follows absent entry object inside
  exact ⟨m, lists, outcome, sound.mpr trivial⟩

/-! ### A buffer that is to take more than it has room for -/

def threeAndFourOps : List (BufferOp sampleBuffer) :=
  threeNumbersOps ++ [.copyConstruct 1 0, .pushBack 1 Insertion.seven]

/-- The assignment is refused its block; then the first buffer is pushed to. -/
def refusedThenPushed : Option (Option AutoBuffer × Option BufferFault) :=
  match BufferOp.performAll threeAndFourOps (BufferMemory.start sampleBuffer fun _ => false) with
  | .returned _ m =>
      match (FallibleOp.assign 0 1).perform (m.failing fun _ => true) with
      | .thrown m' =>
          match AutoBuffer.pushBack (.named 0) Insertion.seven (m'.failing fun _ => false) with
          | .failed f => some (m'.objects (.named 0), some f)
          | _ => some (m'.objects (.named 0), none)
      | _ => none
  | _ => none

theorem threeAndFour_follow :
    ∃ m lists, BufferOp.performAll threeAndFourOps
        (BufferMemory.start sampleBuffer fun _ => false) = .returned () m ∧
      Follows (fun _ => false) lists m ∧ (lists (.named 0)).isSome ∧ (lists (.named 1)).isSome := by
  obtain ⟨m, outcome, follows⟩ := @sampleOps_follow threeAndFourOps _ rfl
  exact ⟨m, _, outcome, follows, rfl, rfl⟩

theorem assign_leaves_null :
    refusedThenPushed =
        some (some { capacity := 3, buffer := none, size := 3 }, some .nullPointer) ∧
      ∃ m lists, BufferOp.performAll threeAndFourOps
          (BufferMemory.start sampleBuffer fun _ => false) = .returned () m ∧
        Follows (fun _ => false) lists m ∧ (lists (.named 0)).isSome ∧ (lists (.named 1)).isSome ∧
        ¬ (FallibleOp.assign 0 1).Guarantees lists m := by
  have run : refusedThenPushed =
      some (some { capacity := 3, buffer := none, size := 3 }, some .nullPointer) := by
    decide +kernel
  obtain ⟨m, lists, outcome, follows, first, second⟩ := threeAndFour_follow
  refine ⟨run, m, lists, outcome, follows, first, second, fun guarantees => ?_⟩
  unfold refusedThenPushed at run
  rw [outcome] at run
  dsimp only at run
  split at run
  · rename_i m' thrown
    have null : m'.objects (.named 0) = some { capacity := 3, buffer := none, size := 3 } := by
      split at run
      · exact (Prod.mk.inj (Option.some.inj run)).1
      · exact (Prod.mk.inj (Option.some.inj run)).1
    have unsound : ¬ (FallibleOp.assign 0 1).Sound lists m' := not_sound_of_null null rfl
    exact unsound ((guarantees fun _ => true).of_thrown thrown).1
  · cases run

end FallibleOp

end Signals2
