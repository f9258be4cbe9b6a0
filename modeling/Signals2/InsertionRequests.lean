/-
All overloads of `insert`, against the insertion into a list.
-/

import Signals2.AutoBufferInsertion
import Signals2.AutoBufferRuns

namespace Signals2

open FalliblePrograms FalliblePrograms.Program AutoBuffer

variable {t : BufferTemplate}

/-- The overloads; the arguments are not parts of the buffer. -/
inductive Insertion (t : BufferTemplate) where
  | one (x : t.T)
  | copies (n : Fin sizeLimit) (x : t.T)
  | range (pointers : Bool) (values : List t.T)
  | input (values : List t.T)

namespace Insertion

def perform (b : BufferName) (before : Nat) : Insertion t → Buffered t (Option (Pointer × Nat))
  | .one x => do
      let position ← insert b before x
      pure (some position)
  | .copies n x => do
      insertN b before n x
      pure none
  | .range pointers values => do
      insertRange b before pointers values
      pure none
  | .input values => do
      insertInput b before values
      pure none

def values : Insertion t → List t.T
  | .one x => [x]
  | .copies n x => List.replicate n x
  | .range _ values => values
  | .input values => values

/-- The one overload that returns a position returns that of the new element. -/
def position (buffer : Pointer) (before : Nat) : Insertion t → Option (Pointer × Nat)
  | .one _ => some (buffer, before)
  | _ => none

/-- The list with what is inserted. -/
def inserted (request : Insertion t) (before : Nat) (list : List t.T) : List t.T :=
  list.take before ++ request.values ++ list.drop before

/-- The buffer is valid and has the list with what is inserted; nothing else has changed. -/
structure Done (request : Insertion t) (lists : Contents t) (b before : Nat) (list : List t.T)
    (position : Option (Pointer × Nat)) (m : BufferMemory t) : Prop where
  buffer : ∃ o, m.objects (.named b) = some o ∧ o.isValid t (.named b) = true ∧
    o.size = list.length + request.values.length ∧
    position = request.position o.buffer before
  exact_ : Exact (Function.update lists (.named b) (some (request.inserted before list))) m

/-- Whatever throws: the insertion is done, unless something has thrown. -/
def Inserts (request : Insertion t) (lists : Contents t) (b before : Nat) (list : List t.T)
    (m : BufferMemory t) : Prop :=
  ∀ throws, Spec (request.perform (.named b) before) (m.failing throws)
    (request.Done lists b before list) fun _ => ∃ n, throws n = true

/-! ### When it is done -/

/-- `size_type` holds the new size, or there is room for so many. -/
def Counted (o : AutoBuffer) : Insertion t → Prop
  | .copies n _ => o.size + n < sizeLimit ∨ o.size + n ≤ o.capacity
  | _ => True

/-- The elements behind the position are copied to another buffer, or come through the shift. -/
def Spares (o : AutoBuffer) (suffix : List t.T) : Insertion t → Prop
  | .one _ => o.size = o.capacity ∨ Survives t 1 suffix
  | .copies n _ => o.capacity < o.size + n ∨ Survives t n suffix
  | .range _ values => o.capacity < o.size + values.length ∨ Survives t values.length suffix
  | .input values => Reallocates t o.capacity o.size values.length ∨ Survives t 1 suffix

variable {w : Others t} {b : BufferName} {o : AutoBuffer} {request : Insertion t}
variable {lists : Contents t} {list : List t.T} {m : BufferMemory t} {before : Nat}

/-- What stands behind the inserted elements is the suffix just when it is spared. -/
def Placed (request : Insertion t) (w : Others t) (b : BufferName) (o : AutoBuffer)
    (list : List t.T) (before : Nat) (position : Option (Pointer × Nat)) (m : BufferMemory t) :
    Prop :=
  ∃ o' shifted, Keeps w b o' (list.take before ++ request.values ++ shifted) m ∧
    (shifted = list.drop before ↔ request.Spares o (list.drop before)) ∧
    position = request.position o'.buffer before

theorem one_placed (named_ : b ≠ .temporary) (absent : w.lists .temporary = none)
    (keeps : Keeps w b o list m) (inside : before ≤ list.length) (x : t.T) :
    Spec ((Insertion.one x).perform b before) m ((Insertion.one x).Placed w b o list before)
      (Leaves w b) := by
  have size := keeps.size
  have fits := keeps.fits
  refine (insert_spec named_ absent keeps inside x).bind ?_ fun _ => id
  rintro position m' ⟨o', shifted, same, keeps', placed, rebuilt⟩
  refine ⟨o', shifted, keeps', ?_, congrArg some same⟩
  by_cases room : list.length < o.capacity
  · have notFull : ¬ o.size = o.capacity := by omega
    rw [(placed room).eq_iff]
    exact ⟨.inr, fun spared => spared.resolve_left notFull⟩
  · have full_ : list.length = o.capacity := by omega
    rw [(rebuilt full_).1]
    exact ⟨fun _ => .inl (size.trans full_), fun _ => rfl⟩

theorem copies_placed (named_ : b ≠ .temporary) (absent : w.lists .temporary = none)
    (keeps : Keeps w b o list m) (inside : before ≤ list.length) {n : Fin sizeLimit} {x : t.T}
    (counted : (Insertion.copies n x).Counted o) :
    Spec ((Insertion.copies n x).perform b before) m
      ((Insertion.copies n x).Placed w b o list before) (Leaves w b) := by
  have size := keeps.size
  by_cases room : list.length + n ≤ o.capacity
  · refine (insertN_inPlace keeps inside room x).bind ?_ fun _ => id
    rintro _ m' ⟨shifted, moved, keeps'⟩
    refine ⟨_, shifted, keeps', ?_, rfl⟩
    have within : ¬ o.capacity < o.size + n := by omega
    rw [moved.eq_iff]
    exact ⟨.inr, fun spared => spared.resolve_left within⟩
  · have more : o.capacity < list.length + n := Nat.not_le.mp room
    have small : list.length + n < sizeLimit := by
      rcases counted with small | fits
      · rwa [size] at small
      · rw [size] at fits
        exact absurd fits room
    refine (insertN_rebuilt named_ absent keeps inside small more x).bind ?_
      fun m' thrown => ⟨thrown.1, o, list, thrown.2⟩
    rintro _ m' ⟨p, keeps'⟩
    refine ⟨_, list.drop before, keeps', ?_, rfl⟩
    rw [← size] at more
    exact ⟨fun _ => .inl more, fun _ => rfl⟩

theorem range_placed (named_ : b ≠ .temporary) (absent : w.lists .temporary = none)
    (keeps : Keeps w b o list m) (inside : before ≤ list.length) (pointers : Bool)
    (values : List t.T) :
    Spec ((Insertion.range pointers values).perform b before) m
      ((Insertion.range pointers values).Placed w b o list before) (Leaves w b) := by
  have size := keeps.size
  by_cases room : list.length + values.length ≤ o.capacity
  · refine (insertRange_inPlace keeps inside pointers room).bind ?_ fun _ => id
    rintro _ m' ⟨shifted, moved, keeps'⟩
    refine ⟨_, shifted, keeps', ?_, rfl⟩
    have within : ¬ o.capacity < o.size + values.length := by omega
    rw [moved.eq_iff]
    exact ⟨.inr, fun spared => spared.resolve_left within⟩
  · have more : o.capacity < list.length + values.length := Nat.not_le.mp room
    refine (insertRange_rebuilt named_ absent keeps inside pointers more).bind ?_
      fun m' thrown => ⟨thrown.1, o, list, thrown.2⟩
    rintro _ m' ⟨p, keeps'⟩
    refine ⟨_, list.drop before, keeps', ?_, rfl⟩
    rw [← size] at more
    exact ⟨fun _ => .inl more, fun _ => rfl⟩

theorem input_placed (named_ : b ≠ .temporary) (absent : w.lists .temporary = none)
    (keeps : Keeps w b o list m) (inside : before ≤ list.length) (values : List t.T) :
    Spec ((Insertion.input values).perform b before) m
      ((Insertion.input values).Placed w b o list before) (Leaves w b) := by
  refine (insertInput_spec named_ absent keeps inside).bind ?_ fun _ => id
  rintro _ m' ⟨o', shifted, keeps', spared⟩
  rw [← keeps.size] at spared
  exact ⟨o', shifted, keeps', spared, rfl⟩

theorem perform_placed (named_ : b ≠ .temporary) (absent : w.lists .temporary = none)
    (keeps : Keeps w b o list m) (inside : before ≤ list.length) (counted : request.Counted o) :
    Spec (request.perform b before) m (request.Placed w b o list before) (Leaves w b) := by
  cases request with
  | one x => exact one_placed named_ absent keeps inside x
  | copies n x => exact copies_placed named_ absent keeps inside counted
  | range pointers values => exact range_placed named_ absent keeps inside pointers values
  | input values => exact input_placed named_ absent keeps inside values

/-- What is spared is where it belongs. -/
theorem Placed.done {b : Nat} {position : Option (Pointer × Nat)} {m' : BufferMemory t}
    (placed : request.Placed w (.named b) o list before position m')
    (spares : request.Spares o (list.drop before)) (inside : before ≤ list.length) :
    request.Done w.lists b before list position m' := by
  obtain ⟨o', shifted, keeps, spared, same⟩ := placed
  have unchanged := spared.mpr spares
  subst unchanged
  refine ⟨⟨o', keeps.there, keeps.isValid, ?_, same⟩, keeps.follows.exact⟩
  rw [keeps.size]
  simp only [List.length_append, List.length_take, List.length_drop]
  omega

/-- What is not spared is lost. -/
theorem Placed.spares {b : Nat} {position : Option (Pointer × Nat)} {m' : BufferMemory t}
    (placed : request.Placed w (.named b) o list before position m')
    (done : request.Done w.lists b before list position m') :
    request.Spares o (list.drop before) := by
  obtain ⟨o', shifted, keeps, spared, _⟩ := placed
  have same := congrFun (keeps.follows.exact.unique done.exact_) (.named b)
  rw [Function.update_self, Function.update_self, Option.some.injEq, inserted] at same
  exact spared.mp (List.append_cancel_left same)

/-- Without room for so many nothing good happens. -/
theorem perform_overrun (keeps : Keeps w b o list m) (quiet : ¬ w.MayThrow)
    (uncounted : ¬ request.Counted o) : ∃ f, request.perform b before m = .failed f := by
  have size := keeps.size
  cases request with
  | copies n x =>
      have both : ¬ (o.size + n < sizeLimit ∨ o.size + n ≤ o.capacity) := uncounted
      obtain ⟨f, failed⟩ :=
        insertN_overrun keeps quiet n.isLt (by omega) (by omega) before x
      exact ⟨f, bind_of_failed failed⟩
  | one | range | input => exact absurd trivial uncounted

/-- An insertion does what it is for just when the size is counted and the elements behind
the position are spared. -/
theorem inserts_iff {throws : Nat → Bool} {b : Nat} (follows : Follows throws lists m)
    (absent : lists .temporary = none) (entry : lists (.named b) = some list)
    (object : m.objects (.named b) = some o) (inside : before ≤ list.length) :
    request.Inserts lists b before list m ↔
      request.Counted o ∧ request.Spares o (list.drop before) := by
  have named_ : BufferName.named b ≠ .temporary := Ne.symm (temporary_ne b)
  constructor
  · intro inserts
    have calm := inserts fun _ => false
    obtain ⟨w, rfl, plan, keeps⟩ := (follows.failing fun _ => false).keeps entry object
    have quiet := Others.quiet plan
    have counted : request.Counted o := by
      by_contra uncounted
      obtain ⟨f, failed⟩ := perform_overrun keeps quiet uncounted
      exact calm.not_failed failed
    have placed : Spec (request.perform (.named b) before) (m.failing fun _ => false) _
        fun _ => False :=
      (perform_placed named_ absent keeps inside counted).mono (fun _ _ => id)
        fun _ leaves => quiet leaves.1
    obtain ⟨position, m', outcome, placed'⟩ := placed.returned
    exact ⟨counted, placed'.spares (calm.of_returned outcome)⟩
  · rintro ⟨counted, spares⟩ throws'
    obtain ⟨w, rfl, rfl, keeps⟩ := (follows.failing throws').keeps entry object
    exact (perform_placed named_ absent keeps inside counted).mono
      (fun _ _ placed => placed.done spares inside) fun _ leaves => leaves.1

/-! ### Buffers of three numbers, with room for more -/

def seven : sampleBuffer.T :=
  let number : Nat := 7
  number

def repeatedNumbers : List sampleBuffer.T :=
  let numbers : List Nat := [1, 4, 4]
  numbers

def repeatedOps : List (BufferOp sampleBuffer) :=
  [.rangeConstruct 0 true repeatedNumbers, .reserve 0 10]

/-- Behind the first the two equal elements come through the shift. -/
theorem inserts_behind :
    elementsAfter repeatedOps ((Insertion.one seven).perform (.named 0) 1) =
        some [some 1, some 7, some 4, some 4] ∧
      ∃ m lists, BufferOp.performAll repeatedOps (BufferMemory.start sampleBuffer fun _ => false) =
          .returned () m ∧ (Insertion.one seven).Inserts lists 0 1 repeatedNumbers m := by
  have run : elementsAfter repeatedOps ((Insertion.one seven).perform (.named 0) 1) =
      some [some 1, some 7, some 4, some 4] := by decide +kernel
  obtain ⟨m, outcome, follows⟩ := @sampleOps_follow repeatedOps _ rfl
  obtain ⟨o, _, object, _⟩ := follows.exact.buffers (.named 0) repeatedNumbers rfl
  have inside : 1 ≤ repeatedNumbers.length := by decide
  have repeats : ForwardCopies.Repeats 1 (repeatedNumbers.drop 1) := by
    intro j behind
    have two : (repeatedNumbers.drop 1).length = 2 := rfl
    have first : j = 0 := by omega
    rw [first]
    rfl
  have spares : (Insertion.one seven).Spares o (repeatedNumbers.drop 1) := .inr (.inr repeats)
  exact ⟨run, m, _, outcome,
    (inserts_iff follows rfl rfl object inside).mpr ⟨trivial, spares⟩⟩

def roomOps : List (BufferOp sampleBuffer) := threeNumbersOps ++ [.reserve 0 10]

/-- In front of the three there are three copies of the first afterwards. -/
theorem insert_in_front_repeats :
    elementsAfter roomOps ((Insertion.one seven).perform (.named 0) 0) =
        some [some 7, some 1, some 1, some 1] ∧
      ∃ m lists, BufferOp.performAll roomOps (BufferMemory.start sampleBuffer fun _ => false) =
          .returned () m ∧
        Follows (fun _ => false) lists m ∧ lists (.named 0) = some threeNumbers ∧
        ¬ (Insertion.one seven).Inserts lists 0 0 threeNumbers m := by
  have run : elementsAfter roomOps ((Insertion.one seven).perform (.named 0) 0) =
      some [some 7, some 1, some 1, some 1] := by decide +kernel
  obtain ⟨m, outcome, follows⟩ := @sampleOps_follow roomOps _ rfl
  refine ⟨run, m, _, outcome, follows, rfl, fun inserts => ?_⟩
  obtain ⟨position, m', returned, done⟩ := returned_of_calm follows (inserts fun _ => false)
  have wanted : m'.elements (.named 0) = _ :=
    done.exact_.elements_eq (Function.update_self _ _ _)
  rw [elementsAfter_eq outcome returned, wanted] at run
  cases run

end Insertion

end Signals2
