/-
Erasure of one element or a range.  The elements behind the gap are counted in an
`unsigned` and moved to the left.
-/

import Signals2.AutoBufferRuns

namespace Signals2

open FalliblePrograms FalliblePrograms.Program ForwardCopies AutoBuffer

variable {t : BufferTemplate} {w : Others t} {b : BufferName} {o : AutoBuffer}
variable {lists : Contents t} {list : List t.T} {m : BufferMemory t} {from_ to_ : Nat}

/-- How many of the elements behind a gap are moved. -/
def elementsMoved (behind : Nat) : Nat := behind % unsignedLimit

/-- What `std::copy` and the popping leave of the elements. -/
def closed (t : BufferTemplate) (list : List t.T) (from_ to_ : Nat) : List t.T :=
  (copied t list to_ (elementsMoved (list.length - to_)) from_).take
    (list.length - (to_ - from_))

/-- The elements behind the gap are all moved, or those that are not stand there already. -/
def Closes (list : List t.T) (from_ to_ : Nat) : Prop :=
  ∀ k, elementsMoved (list.length - to_) ≤ k → to_ + k < list.length →
    list[from_ + k]? = list[to_ + k]?

theorem elementsMoved_le (behind : Nat) : elementsMoved behind ≤ behind := Nat.mod_le _ _

theorem closes_of_lt (small : list.length - to_ < unsignedLimit) : Closes list from_ to_ := by
  intro k unmoved inside
  rw [elementsMoved, Nat.mod_eq_of_lt small] at unmoved
  omega

theorem closed_iff (order : from_ ≤ to_) (within : to_ ≤ list.length) :
    closed t list from_ to_ = list.take from_ ++ list.drop to_ ↔ Closes list from_ to_ := by
  have fits : to_ + elementsMoved (list.length - to_) ≤ list.length := by
    have fewer := elementsMoved_le (list.length - to_)
    omega
  have all : copied t list to_ (elementsMoved (list.length - to_)) from_ =
      blockMove list to_ from_ (elementsMoved (list.length - to_)) := by
    unfold copied
    split
    · rfl
    · exact forwardCopy_left order fits
  rw [closed, all]
  exact blockMove_close_iff order fits

namespace AutoBuffer

/-- The elements are moved, if there are any. -/
theorem moveLeft_spec (keeps : Keeps w b o list m) (order : from_ ≤ to_)
    (within : to_ ≤ list.length) :
    Spec (if 0 < elementsMoved (list.length - to_) then
        stdCopy o.buffer to_ (elementsMoved (list.length - to_)) from_ else pure ()) m
      (fun _ m' => Keeps w b o
        (copied t list to_ (elementsMoved (list.length - to_)) from_) m') (Leaves w b) := by
  have fewer := elementsMoved_le (list.length - to_)
  split
  · exact stdCopy_keeps keeps (by omega) (by omega)
  · rename_i nothing
    have none_ : elementsMoved (list.length - to_) = 0 := by omega
    have same : copied t list to_ 0 from_ = list := by
      unfold copied
      split
      · exact blockMove_none
      · rfl
    rw [none_, same]
    exact keeps

theorem erase_spec (keeps : Keeps w b o list m) (inside : from_ < list.length) :
    Spec (erase b from_) m
      (fun position m' => position = (o.buffer, from_) ∧
        Keeps w b { o with size := o.size - 1 } (closed t list from_ (from_ + 1)) m')
      (Leaves w b) := by
  have size := keeps.size
  have fits := keeps.fits
  unfold erase
  refine Spec.after keeps.object ?_
  refine Spec.after (assert_returned (decide_eq_true (by omega))) ?_
  refine Spec.after (assert_returned (decide_eq_true (by omega))) ?_
  have behind : (o.size - from_ - 1) % unsignedLimit =
      elementsMoved (list.length - (from_ + 1)) := by rw [elementsMoved, size, Nat.sub_sub]
  rw [behind]
  refine (moveLeft_spec keeps (Nat.le_succ from_) inside).bind (fun _ m₁ keeps₁ => ?_) fun _ => id
  have fewer := elementsMoved_le (list.length - (from_ + 1))
  have length := @copied_length t (elementsMoved (list.length - (from_ + 1))) list (from_ + 1)
    from_ (by omega)
  have some_ : copied t list (from_ + 1) (elementsMoved (list.length - (from_ + 1))) from_ ≠ [] :=
    List.length_pos_iff.mp (by omega)
  refine (popBack_spec keeps₁ some_).bind (fun _ m₂ keeps₂ => ?_) fun _ => id
  have one : from_ + 1 - from_ = 1 := by omega
  rw [List.dropLast_eq_take, length] at keeps₂
  rw [closed, one]
  refine Spec.after keeps₂.object ?_
  have room : (!({ o with size := o.size - 1 } : AutoBuffer).full) = true := by
    have different : o.size - 1 ≠ o.capacity := by omega
    simpa [full] using different
  refine Spec.after (assert_returned room) ?_
  refine Spec.after (assert_returned (decide_eq_true (by change from_ ≤ o.size - 1; omega))) ?_
  exact ⟨rfl, keeps₂⟩

/-- The gap of a range is closed; the last elements go. -/
theorem closeRange_spec (keeps : Keeps w b o list m) (order : from_ ≤ to_)
    (within : to_ ≤ list.length) :
    Spec (do
        (if 0 < elementsMoved (list.length - to_) then
          stdCopy o.buffer to_ (elementsMoved (list.length - to_)) from_ else pure ())
        popBackN b (to_ - from_)) m
      (fun _ m' => Keeps w b { o with size := o.size - (to_ - from_) } (closed t list from_ to_) m')
      (Leaves w b) := by
  have fewer := elementsMoved_le (list.length - to_)
  have length := @copied_length t (elementsMoved (list.length - to_)) list to_ from_ (by omega)
  refine (moveLeft_spec keeps order within).bind (fun _ m₁ keeps₁ => ?_) fun _ => id
  have popped : Spec (popBackN b (to_ - from_)) m₁ _ (Leaves w b) :=
    popBackN_spec keeps₁ (by omega)
  rw [length] at popped
  exact popped

/-- `eraseRange` up to the last two assertions. -/
theorem eraseRange_eq (keeps : Keeps w b o list m) (within : to_ ≤ list.length) :
    eraseRange b from_ to_ m =
      ((do
        (if 0 < elementsMoved (list.length - to_) then
          stdCopy o.buffer to_ (elementsMoved (list.length - to_)) from_ else pure ())
        popBackN b (to_ - from_)) >>= fun _ => do
          let o' ← object b
          assert .assertion (!o'.full)
          assert .assertion (from_ ≤ o'.size)
          pure (o.buffer, from_)) m := by
  have size := keeps.size
  have some_ : (!decide (from_ < to_) || decide (o.size ≠ 0)) = true := by
    by_cases range : from_ < to_
    · have positive : o.size ≠ 0 := by omega
      simp [positive]
    · simp [range]
  have inside : decide (to_ ≤ o.size) = true := decide_eq_true (by omega)
  unfold eraseRange
  rw [bind_of_returned keeps.object, bind_of_returned (assert_returned some_),
    bind_of_returned (assert_returned inside), bind_assoc, size]
  rfl

theorem eraseRange_spec (keeps : Keeps w b o list m) (order : from_ ≤ to_)
    (within : to_ ≤ list.length) (room : from_ = to_ → list.length < o.capacity) :
    Spec (eraseRange b from_ to_) m
      (fun position m' => position = (o.buffer, from_) ∧
        Keeps w b { o with size := o.size - (to_ - from_) } (closed t list from_ to_) m')
      (Leaves w b) := by
  have size := keeps.size
  have fits := keeps.fits
  unfold Spec
  rw [eraseRange_eq keeps within]
  refine (closeRange_spec keeps order within).bind (fun _ m₁ keeps₁ => ?_) fun _ => id
  refine Spec.after keeps₁.object ?_
  have less : o.size - (to_ - from_) < o.capacity := by
    by_cases same : from_ = to_
    · have notFull := room same
      omega
    · omega
  have notFull : (!({ o with size := o.size - (to_ - from_) } : AutoBuffer).full) = true := by
    simpa [full] using Nat.ne_of_lt less
  refine Spec.after (assert_returned notFull) ?_
  refine Spec.after (assert_returned (decide_eq_true ?_)) ⟨rfl, keeps₁⟩
  change from_ ≤ o.size - (to_ - from_)
  omega

/-- Nothing is erased from a full buffer, and the buffer is asserted not to be full. -/
theorem eraseRange_full (keeps : Keeps w b o list m) (quiet : ¬ w.MayThrow)
    (within : from_ ≤ list.length) (full_ : list.length = o.capacity) :
    eraseRange b from_ from_ m = .failed .assertion := by
  have calm := (closeRange_spec keeps (Nat.le_refl from_) within).mono (fun _ _ => id)
    (fun _ leaves => quiet leaves.1)
  obtain ⟨_, m₁, outcome, keeps₁⟩ := calm.returned
  have still : (!({ o with size := o.size - (from_ - from_) } : AutoBuffer).full) = false := by
    simp [full, keeps.size, full_]
  rw [eraseRange_eq keeps within, bind_of_returned outcome,
    bind_of_returned keeps₁.object, still]
  rfl

end AutoBuffer

/-! ### Requests -/

/-- Both overloads. -/
inductive Erasure where
  | one (where_ : Nat)
  | range (from_ to_ : Nat)
deriving DecidableEq, Repr

namespace Erasure

def perform (b : BufferName) : Erasure → Buffered t (Pointer × Nat)
  | .one where_ => erase b where_
  | .range from_ to_ => eraseRange b from_ to_

def first : Erasure → Nat
  | .one where_ => where_
  | .range from_ _ => from_

def last : Erasure → Nat
  | .one where_ => where_ + 1
  | .range _ to_ => to_

/-- The positions are positions of the buffer. -/
def Valid (request : Erasure) (list : List t.T) : Prop :=
  request.first ≤ request.last ∧ request.last ≤ list.length

instance (request : Erasure) (list : List t.T) : Decidable (request.Valid list) :=
  inferInstanceAs (Decidable (_ ∧ _))

/-- The list without what is erased. -/
def erased (request : Erasure) (list : List t.T) : List t.T :=
  list.take request.first ++ list.drop request.last

/-- The buffer is valid and has the list without what is erased; nothing else has changed. -/
structure Done (request : Erasure) (lists : Contents t) (b : Nat) (list : List t.T)
    (position : Pointer × Nat) (m : BufferMemory t) : Prop where
  buffer : ∃ o, m.objects (.named b) = some o ∧ o.isValid t (.named b) = true ∧
    o.size = list.length - (request.last - request.first) ∧ position = (o.buffer, request.first)
  exact_ : Exact (Function.update lists (.named b) (some (request.erased list))) m

/-- Whatever throws: the elements are erased and no assertion fails, unless something has
thrown. -/
def Erases (request : Erasure) (lists : Contents t) (b : Nat) (list : List t.T)
    (m : BufferMemory t) : Prop :=
  ∀ throws, Spec (request.perform (.named b)) (m.failing throws) (request.Done lists b list)
    fun _ => ∃ n, throws n = true

/-- A range is not empty, or the buffer not full. -/
def Roomy (o : AutoBuffer) : Erasure → Prop
  | .one _ => True
  | .range from_ to_ => from_ = to_ → o.size < o.capacity

variable {request : Erasure}

theorem perform_closes (keeps : Keeps w b o list m) (valid : request.Valid list)
    (roomy : request.Roomy o) :
    Spec (request.perform b) m
      (fun position m' => position = (o.buffer, request.first) ∧
        Keeps w b { o with size := o.size - (request.last - request.first) }
          (closed t list request.first request.last) m') (Leaves w b) := by
  cases request with
  | one where_ =>
      have one : where_ + 1 - where_ = 1 := by omega
      simp only [perform, first, last, one]
      exact erase_spec keeps valid.2
  | range from_ to_ =>
      refine eraseRange_spec keeps valid.1 valid.2 ?_
      rw [← keeps.size]
      exact roomy

theorem perform_full (keeps : Keeps w b o list m) (quiet : ¬ w.MayThrow)
    (valid : request.Valid list) (full_ : ¬ request.Roomy o) :
    request.perform b m = .failed .assertion := by
  have size := keeps.size
  have fits := keeps.fits
  cases request with
  | one where_ => exact absurd trivial full_
  | range from_ to_ =>
      unfold Roomy at full_
      push Not at full_
      obtain ⟨rfl, most⟩ := full_
      exact eraseRange_full keeps quiet valid.2 (by omega)

/-- An erasure does what it is for just when all elements behind the gap are moved, or need
not be, and a range to be erased from a full buffer is not empty. -/
theorem erases_iff {throws : Nat → Bool} {b : Nat} (follows : Follows throws lists m)
    (entry : lists (.named b) = some list) (object : m.objects (.named b) = some o)
    (valid : request.Valid list) :
    request.Erases lists b list m ↔
      request.Roomy o ∧ Closes list request.first request.last := by
  constructor
  · intro erases
    have calm := erases fun _ => false
    obtain ⟨w, rfl, plan, keeps⟩ := (follows.failing fun _ => false).keeps entry object
    have quiet := Others.quiet plan
    have roomy : request.Roomy o := by
      by_contra full_
      exact calm.not_failed (perform_full keeps quiet valid full_)
    have closes : Spec (request.perform (.named b)) (m.failing fun _ => false) _ fun _ => False :=
      (perform_closes keeps valid roomy).mono (fun _ _ => id) fun _ leaves => quiet leaves.1
    obtain ⟨position, m', outcome, _, keeps'⟩ := closes.returned
    have same := congrFun (keeps'.follows.exact.unique (calm.of_returned outcome).exact_) (.named b)
    rw [Function.update_self, Function.update_self, Option.some.injEq] at same
    exact ⟨roomy, (closed_iff valid.1 valid.2).mp same⟩
  · rintro ⟨roomy, closes⟩ throws'
    obtain ⟨w, rfl, rfl, keeps⟩ := (follows.failing throws').keeps entry object
    refine (perform_closes keeps valid roomy).mono ?_ fun _ leaves => leaves.1
    rintro position m' ⟨same, keeps'⟩
    have all : closed t list request.first request.last = request.erased list :=
      (closed_iff valid.1 valid.2).mpr closes
    rw [all] at keeps'
    exact ⟨⟨_, keeps'.there, keeps'.isValid, by rw [keeps.size], same⟩, keeps'.follows.exact⟩

theorem erases_middle :
    ∃ m lists, BufferOp.performAll threeNumbersOps (BufferMemory.start sampleBuffer fun _ => false) =
        .returned () m ∧ (Erasure.one 1).Erases lists 0 threeNumbers m := by
  obtain ⟨m, lists, outcome, follows, entry, _⟩ := threeNumbers_follow
  obtain ⟨o, _, object, _⟩ := follows.exact.buffers _ _ entry
  have valid : (Erasure.one 1).Valid threeNumbers := by decide
  have closes : Closes threeNumbers 1 2 := closes_of_lt (by decide)
  exact ⟨m, lists, outcome, (erases_iff follows entry object valid).mpr ⟨trivial, closes⟩⟩

/-- An empty range in a buffer of three with room for three. -/
theorem erase_nothing_fails :
    elementsAfter threeNumbersOps ((Erasure.range 1 1).perform (.named 0)) = none ∧
      ∃ m lists, BufferOp.performAll threeNumbersOps
          (BufferMemory.start sampleBuffer fun _ => false) = .returned () m ∧
        Follows (fun _ => false) lists m ∧ lists (.named 0) = some threeNumbers ∧
        (Erasure.range 1 1).Valid threeNumbers ∧
        ¬ (Erasure.range 1 1).Erases lists 0 threeNumbers m := by
  have run : elementsAfter threeNumbersOps ((Erasure.range 1 1).perform (.named 0)) = none := by
    decide +kernel
  have valid : (Erasure.range 1 1).Valid threeNumbers := by decide
  obtain ⟨m, lists, outcome, follows, entry, _⟩ := threeNumbers_follow
  refine ⟨run, m, lists, outcome, follows, entry, valid, fun erases => ?_⟩
  obtain ⟨position, m', returned, _⟩ := returned_of_calm follows (erases fun _ => false)
  rw [elementsAfter_eq outcome returned] at run
  cases run

end Erasure

end Signals2
