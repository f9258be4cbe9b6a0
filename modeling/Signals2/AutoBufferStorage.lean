/-
Where a buffer keeps its elements: in its own storage, with a capacity of `N`, or in a
block of more.  `allocate`, `deallocate` and the move from one storage to another.
-/

import Signals2.AutoBufferLayout

namespace Signals2

open FalliblePrograms FalliblePrograms.Program AutoBuffer

variable {t : BufferTemplate}

namespace Layout

/-- The storage is the one that `allocate` has for this capacity. -/
def Holds (l : Layout t) (b : BufferName) (capacity : Nat) : Storage → Prop
  | .internal b' => b' = b ∧ capacity ≤ t.N
  | .block k => t.N < capacity ∧ l.blocks k = some capacity

/-- The storage is one that `allocate` may hand out for this capacity. -/
def Free (l : Layout t) (b : BufferName) (capacity : Nat) : Storage → Prop
  | .internal b' => b' = b ∧ capacity ≤ t.N
  | .block k => t.N < capacity ∧ l.blocks k = none

def grant (l : Layout t) (storage : Storage) (capacity : Nat) : Layout t :=
  match storage with
  | .internal _ => l
  | .block k => l.newBlock k capacity

def release (l : Layout t) : Storage → Layout t
  | .internal _ => l
  | .block k => l.freeBlock k

/-- The object keeps the elements in the storage. -/
structure Housed (l : Layout t) (b : BufferName) (o : AutoBuffer) (storage : Storage)
    (list : List t.T) : Prop where
  object : l.objects b = some o
  buffer : o.buffer = some storage
  size : o.size = list.length
  live : l.live storage = list
  fits : list.length ≤ o.capacity
  least : t.N ≤ o.capacity
  holds : l.Holds b o.capacity storage

variable {l : Layout t} {b : BufferName} {o : AutoBuffer} {storage other : Storage}
variable {list list' : List t.T} {c : Nat}

@[simp] theorem grant_objects : (l.grant storage c).objects = l.objects := by
  cases storage <;> rfl

@[simp] theorem grant_live : (l.grant storage c).live = l.live := by
  cases storage <;> rfl

@[simp] theorem grant_throws : (l.grant storage c).throws = l.throws := by
  cases storage <;> rfl

@[simp] theorem grant_count : (l.grant storage c).count = l.count := by
  cases storage <;> rfl

@[simp] theorem release_objects : (l.release storage).objects = l.objects := by
  cases storage <;> rfl

@[simp] theorem release_live : (l.release storage).live = l.live := by
  cases storage <;> rfl

@[simp] theorem release_throws : (l.release storage).throws = l.throws := by
  cases storage <;> rfl

@[simp] theorem release_count : (l.release storage).count = l.count := by
  cases storage <;> rfl

theorem Free.held (free : l.Free b c storage) : (l.grant storage c).Holds b c storage := by
  cases storage with
  | internal b' => exact free
  | block k => exact ⟨free.1, Function.update_self _ _ _⟩

/-- What was granted and is given back at once leaves no trace. -/
theorem Free.release_grant (free : l.Free b c storage) :
    (l.grant storage c).release storage = l := by
  cases storage with
  | internal b' => rfl
  | block k =>
      have same : Function.update l.blocks k none = l.blocks := by
        rw [← free.2, Function.update_eq_self]
      simp only [grant, release, newBlock, freeBlock, Function.update_idem, same]

/-- The capacity of the internal storage may be put right afterwards. -/
theorem Free.settle (free : l.Free b c storage) :
    l.Free b (max t.N c) storage ∧ l.grant storage (max t.N c) = l.grant storage c := by
  cases storage with
  | internal b' => exact ⟨⟨free.1, Nat.max_le.mpr ⟨Nat.le_refl _, free.2⟩⟩, rfl⟩
  | block k =>
      rw [Nat.max_eq_right (Nat.le_of_lt free.1)]
      exact ⟨free, rfl⟩

theorem grant_blocks_other {k : Nat} (apart : storage ≠ .block k) :
    (l.grant storage c).blocks k = l.blocks k := by
  cases storage with
  | internal b => rfl
  | block k' =>
      have different : k ≠ k' := fun same => apart (congrArg Storage.block same.symm)
      exact Function.update_of_ne different _ _

theorem release_blocks_other {k : Nat} (apart : storage ≠ .block k) :
    (l.release storage).blocks k = l.blocks k := by
  cases storage with
  | internal b => rfl
  | block k' =>
      have different : k ≠ k' := fun same => apart (congrArg Storage.block same.symm)
      exact Function.update_of_ne different _ _

/-- The capacity counts what the storage has room for. -/
theorem Holds.room (holds : l.Holds b c storage) (there : (l.objects b).isSome) :
    c ≤ l.room storage := by
  cases storage with
  | internal b' =>
      obtain ⟨rfl, small⟩ := holds
      simpa [Layout.room, there] using small
  | block k => simp [Layout.room, holds.2]

theorem Housed.room (housed : l.Housed b o storage list) : o.capacity ≤ l.room storage :=
  housed.holds.room (by rw [housed.object]; rfl)

theorem Housed.room_eq (housed : l.Housed b o storage list) : l.room storage = o.capacity := by
  have least := housed.least
  have holds := housed.holds
  cases storage with
  | internal b' =>
      obtain ⟨rfl, small⟩ := holds
      simp only [Layout.room, housed.object, Option.isSome_some, if_true]
      omega
  | block k => simp [Layout.room, holds.2]

theorem Housed.onStack (housed : l.Housed b o storage list) :
    o.isOnStack t = true ↔ storage = .internal b := by
  have holds := housed.holds
  cases storage with
  | internal b' =>
      obtain ⟨rfl, small⟩ := holds
      simp [isOnStack, small]
  | block k => simp [isOnStack, holds.1]

/-- The storage is the internal one just when the capacity is `N`. -/
theorem Housed.internal_iff (housed : l.Housed b o storage list) :
    storage = .internal b ↔ o.capacity = t.N := by
  have least := housed.least
  have holds := housed.holds
  cases storage with
  | internal b' =>
      obtain ⟨rfl, small⟩ := holds
      simp only [true_iff]
      omega
  | block k =>
      have large := holds.1
      simp only [reduceCtorEq, false_iff]
      omega

theorem Housed.isValid (housed : l.Housed b o storage list) : o.isValid t b = true := by
  have large : ¬ o.capacity < t.N := Nat.not_lt.mpr housed.least
  have counted : ¬ o.capacity < o.size := by
    rw [housed.size]
    exact Nat.not_lt.mpr housed.fits
  have outside : ¬ (o.buffer = some (.internal b) ∧ t.N < o.capacity) := by
    rintro ⟨inside, more⟩
    rw [housed.buffer, Option.some.injEq] at inside
    rw [housed.internal_iff.mp inside] at more
    exact Nat.lt_irrefl _ more
  have heap : ¬ (o.isOnStack t = false ∧ o.capacity ≤ t.N) := by
    rintro ⟨off, small⟩
    simp [isOnStack, small] at off
  rw [AutoBuffer.isValid, if_neg large, if_neg heap, if_neg outside, if_neg counted]
  exact ite_self _

/-- Other elements in the same storage. -/
theorem Housed.refill (housed : l.Housed b o storage list) (fits : list'.length ≤ o.capacity) :
    ((l.setLive storage list').setObject b (some { o with size := list'.length })).Housed b
      { o with size := list'.length } storage list' where
  object := Function.update_self _ _ _
  buffer := housed.buffer
  size := rfl
  live := setLive_live
  fits := fits
  least := housed.least
  holds := by
    have holds := housed.holds
    cases storage <;> exact holds

/-- What happens in another storage does not matter. -/
theorem Housed.elsewhere (housed : l.Housed b o storage list) (apart : other ≠ storage) :
    ((l.grant other c).setLive other list').Housed b o storage list where
  object := by
    rw [setLive_objects, grant_objects]
    exact housed.object
  buffer := housed.buffer
  size := housed.size
  live := by
    rw [setLive_live_other (Ne.symm apart), grant_live]
    exact housed.live
  fits := housed.fits
  least := housed.least
  holds := by
    have holds := housed.holds
    cases storage with
    | internal b' => exact holds
    | block k =>
        refine ⟨holds.1, ?_⟩
        rw [setLive_blocks, grant_blocks_other apart]
        exact holds.2

/-- The elements have gone to another storage, and the object with them. -/
def moved (l : Layout t) (b : BufferName) (o : AutoBuffer) (storage other : Storage) (c : Nat)
    (list : List t.T) : Layout t :=
  ((((l.grant other c).setLive other list).setLive storage []).release storage).setObject b
    (some { o with buffer := some other, capacity := c })

end Layout

namespace AutoBuffer

variable {m : BufferMemory t} {l : Layout t} {b : BufferName} {o : AutoBuffer}
variable {storage : Storage} {list : List t.T} {c n : Nat} {throws : BufferMemory t → Prop}

/-! ### Objects and blocks -/

theorem object_eq (shows : Shows m l) (there : l.objects b = some o) :
    object b m = .returned o m := by
  rw [← shows.objects] at there
  simp only [object, there]

theorem setObject_spec (shows : Shows m l) (o : AutoBuffer) :
    Spec (setObject b o) m (fun _ m' => Shows m' (l.setObject b (some o))) throws :=
  shows.setObject

theorem assertValid_eq (shows : Shows m l) (there : l.objects b = some o)
    (valid : o.isValid t b = true) : assertValid b m = .returned () m := by
  have read := object_eq shows there
  simp only [assertValid, bind, read, assert_returned valid]

/-- Nothing is left in an empty storage. -/
theorem leaks_of_empty (shows : Shows m l) (empty : l.live storage = []) (capacity : Nat) :
    m.leaks storage capacity = false := by
  unfold BufferMemory.leaks
  cases trivial : t.traits.trivialDestructor with
  | true => rfl
  | false =>
      have gone : ∀ i, m.cells storage i = none := by
        intro i
        apply shows.beyond trivial
        rw [empty]
        exact Nat.zero_le i
      simp [gone]

theorem dropObject_spec (shows : Shows m l) (empty : l.live (.internal b) = []) :
    Spec (dropObject b) m (fun _ m' => Shows m' (l.setObject b none)) throws := by
  have clean := leaks_of_empty shows empty t.N
  simp only [Spec, dropObject, clean, Bool.false_eq_true, if_false]
  exact
    { objects := by simp only [Layout.setObject, shows.objects]
      blocks := shows.blocks
      throws := shows.throws
      cells := shows.cells
      beyond := shows.beyond
      counted := shows.counted
      fits := by
        intro storage
        have fits := shows.fits storage
        cases storage with
        | block k => exact fits
        | internal b' =>
            by_cases same : b' = b
            · subst same
              simp [empty]
            · simpa [Layout.room, Layout.setObject, same] using fits
      fresh := shows.fresh }

theorem newBlock_spec (shows : Shows m l) (c : Nat) :
    Spec (newBlock c) m
      (fun p m' => ∃ k, p = some (.block k) ∧ l.blocks k = none ∧ Shows m' (l.newBlock k c))
      throws := by
  have free : l.blocks m.nextBlock = none := shows.fresh _ (Nat.le_refl _)
  have nothing : l.live (.block m.nextBlock) = [] := shows.unallocated free
  have kept : ∀ storage, storage ≠ .block m.nextBlock →
      Function.update m.cells (.block m.nextBlock) (fun _ => none) storage = m.cells storage :=
    fun storage same => Function.update_of_ne same _ _
  refine ⟨m.nextBlock, rfl, free, ?_⟩
  exact
    { objects := shows.objects
      blocks := by simp only [Layout.newBlock, shows.blocks]
      throws := shows.throws
      cells := by
        intro storage i inside
        by_cases same : storage = .block m.nextBlock
        · subst same
          simp [Layout.newBlock, nothing] at inside
        · exact (congrFun (kept storage same) i).trans (shows.cells storage i inside)
      beyond := by
        intro runs storage i outside
        by_cases same : storage = .block m.nextBlock
        · subst same
          simp
        · exact (congrFun (kept storage same) i).trans (shows.beyond runs storage i outside)
      counted := shows.counted
      fits := by
        intro storage
        by_cases same : storage = .block m.nextBlock
        · subst same
          simp [Layout.newBlock, nothing]
        · rw [Layout.newBlock_room_other same]
          exact shows.fits storage
      fresh := by
        intro k later
        change m.nextBlock + 1 ≤ k at later
        have different : k ≠ m.nextBlock := by omega
        simpa [Layout.newBlock, different] using shows.fresh k (by omega) }

theorem freeBlock_spec {k : Nat} (shows : Shows m l) (has : l.blocks k = some c)
    (empty : l.live (.block k) = []) :
    Spec (freeBlock (some (.block k)) c) m (fun _ m' => Shows m' (l.freeBlock k)) throws := by
  have clean := leaks_of_empty shows empty c
  have there : m.blocks k = some c := by
    rw [shows.blocks]
    exact has
  simp only [Spec, freeBlock, there, if_true, clean, Bool.false_eq_true, if_false]
  exact
    { objects := shows.objects
      blocks := by simp only [Layout.freeBlock, shows.blocks]
      throws := shows.throws
      cells := shows.cells
      beyond := shows.beyond
      counted := shows.counted
      fits := by
        intro storage
        have fits := shows.fits storage
        cases storage with
        | internal b => exact fits
        | block k' =>
            by_cases same : k' = k
            · subst same
              simp [Layout.freeBlock, empty]
            · simpa [Layout.room, Layout.freeBlock, same] using fits
      fresh := by
        intro k' later
        by_cases same : k' = k
        · subst same
          exact Function.update_self _ _ _
        · simpa [Layout.freeBlock, same] using shows.fresh k' later }

theorem allocate_spec (shows : Shows m l) (b : BufferName) (c : Nat) :
    Spec (allocate b c) m
      (fun p m' => ∃ storage, p = some storage ∧ l.Free b c storage ∧
        Shows m' (l.grant storage c))
      fun m' => l.MayThrow ∧ Shows m' l := by
  unfold allocate
  split
  · rename_i large
    refine (mayThrow_spec shows).bind (fun _ m₁ shows₁ => ?_) fun _ => id
    refine (newBlock_spec shows₁ c).mono ?_ fun _ => id
    rintro p m₂ ⟨k, pointer, free, shows₂⟩
    exact ⟨.block k, pointer, ⟨large, free⟩, shows₂⟩
  · rename_i small
    exact ⟨.internal b, rfl, ⟨rfl, Nat.not_lt.mp small⟩, shows⟩

theorem deallocate_spec (shows : Shows m l) (holds : l.Holds b c storage)
    (empty : l.live storage = []) :
    Spec (deallocate (some storage) c) m (fun _ m' => Shows m' (l.release storage)) throws := by
  unfold deallocate
  cases storage with
  | internal b' =>
      rw [if_pos holds.2]
      exact shows
  | block k =>
      rw [if_neg (Nat.not_le.mpr holds.1)]
      exact freeBlock_spec shows holds.2 empty

/-! ### Destruction of elements -/

theorem destroyBackN_spec (shows : Shows m l) (housed : l.Housed b o storage list)
    (some_ : 0 < n) (enough : n ≤ list.length) :
    Spec (destroyBackN b n) m
      (fun _ m' => Shows m' (l.setLive storage (list.take (list.length - n)))) throws := by
  have live := housed.live
  unfold destroyBackN
  split
  · rename_i trivial
    refine shows.forget trivial ?_ ?_
    · intro j inside
      rw [List.length_take] at inside
      rw [shows.cells storage j (by rw [live]; omega), live, List.getElem?_take_of_lt (by omega)]
    · have fits := shows.fits storage
      rw [live] at fits
      rw [List.length_take]
      omega
  · refine Spec.after (assert_returned (decide_eq_true some_)) ?_
    refine Spec.after (object_eq shows housed.object) ?_
    -- `k` elements have gone, from the last one on
    let destroyed : Nat → BufferMemory t → Prop := fun k m' =>
      Shows m' (l.setLive storage (list.take (list.length - k)))
    refine @spec_repeatUpTo _ _ _ _ _ _ destroyed ?_ ?_
    · simp only [destroyed]
      rw [Nat.sub_zero, List.take_length, Layout.setLive_same live]
      exact shows
    · intro k below m₁ shows₁
      have last : list.length - (k + 1) < list.length := by omega
      have more : list.length - (k + 1) + 1 = list.length - k := by omega
      have split : list.take (list.length - k) =
          list.take (list.length - (k + 1)) ++ [list[list.length - (k + 1)]] := by
        rw [← more, List.take_succ_eq_append_getElem last]
      have position : o.size - 1 - k = (list.take (list.length - (k + 1))).length := by
        rw [housed.size, List.length_take]
        omega
      rw [housed.buffer]
      have live₁ : (l.setLive storage (list.take (list.length - k))).live storage =
          list.take (list.length - (k + 1)) ++ [list[list.length - (k + 1)]] := by
        rw [Layout.setLive_live]
        exact split
      refine (destroyElement_spec shows₁ live₁ position).mono (fun _ m₂ shows₂ => ?_) fun _ => id
      rwa [Layout.setLive_setLive] at shows₂

/-- What `~auto_buffer` does to the elements and their storage. -/
theorem autoBufferDestroy_spec (shows : Shows m l) (housed : l.Housed b o storage list) :
    Spec (autoBufferDestroy b) m
      (fun _ m' => Shows m' ((l.setLive storage []).release storage)) throws := by
  unfold autoBufferDestroy
  refine Spec.after (object_eq shows housed.object) ?_
  refine Spec.after (assert_returned housed.isValid) ?_
  have buffer := housed.buffer
  have empty : (l.setLive storage []).live storage = [] := Layout.setLive_live
  have holds : (l.setLive storage []).Holds b o.capacity storage := by
    have holds := housed.holds
    cases storage <;> exact holds
  split
  · -- a null pointer is the address of a storage for nothing
    rename_i null
    cases storage with
    | block k => simp [isNull, buffer] at null
    | internal b' =>
        simp only [isNull, buffer, Bool.and_eq_true, decide_eq_true_eq] at null
        have none_ : list = [] := by
          apply List.eq_nil_of_length_eq_zero
          have fits := housed.fits
          have small := housed.holds.2
          omega
        rw [Layout.setLive_same (by rw [housed.live, none_])]
        exact shows
  · have destroyed : Spec (if o.size = 0 then pure () else destroyBackN b o.size) m
        (fun _ m' => Shows m' (l.setLive storage [])) throws := by
      split
      · rename_i none_
        rw [housed.size] at none_
        rw [Layout.setLive_same (by rw [housed.live, List.eq_nil_of_length_eq_zero none_])]
        exact shows
      · rename_i some_
        have all : Spec (destroyBackN b o.size) m
            (fun _ m' => Shows m' (l.setLive storage (list.take (list.length - o.size)))) throws :=
          destroyBackN_spec shows housed (Nat.pos_of_ne_zero some_) (Nat.le_of_eq housed.size)
        have none_ : list.length - o.size = 0 := by
          rw [housed.size, Nat.sub_self]
        rwa [none_, List.take_zero] at all
    refine destroyed.bind (fun _ m₁ shows₁ => ?_) fun _ => id
    rw [buffer]
    exact deallocate_spec shows₁ holds empty

/-! ### Moving to another storage -/

/-- The elements are copied to a new storage; if that fails the storage is given back. -/
theorem moveToNewBuffer_spec (shows : Shows m l) (housed : l.Housed b o storage list)
    (enough : list.length ≤ c)
    (unused : t.N < c ∨ storage ≠ .internal b ∧ l.live (.internal b) = []) :
    Spec (moveToNewBuffer b c) m
      (fun p m' => ∃ other, p = some other ∧ l.Free b c other ∧ other ≠ storage ∧
        l.live other = [] ∧ Shows m' ((l.grant other c).setLive other list))
      fun m' => l.MayThrow ∧ Shows m' l := by
  unfold moveToNewBuffer
  refine (allocate_spec shows b c).bind ?_ fun _ => id
  rintro p m₁ ⟨other, rfl, free, shows₁⟩
  have apart : other ≠ storage := by
    rintro rfl
    cases other with
    | internal b' =>
        obtain ⟨rfl, small⟩ := free
        rcases unused with large | ⟨different, _⟩
        · omega
        · exact different rfl
    | block k =>
        have allocated := housed.holds.2
        rw [free.2] at allocated
        cases allocated
  have empty : l.live other = [] := by
    cases other with
    | internal b' =>
        obtain ⟨rfl, small⟩ := free
        rcases unused with large | ⟨_, nothing⟩
        · omega
        · exact nothing
    | block k => exact shows.unallocated free.2
  have object₁ : (l.grant other c).objects b = some o := by
    rw [Layout.grant_objects]
    exact housed.object
  have live₁ : (l.grant other c).live storage = list := by
    rw [Layout.grant_live]
    exact housed.live
  refine Spec.after (object_eq shows₁ object₁) ?_
  rw [housed.buffer]
  refine Spec.after (readRange_all shows₁ live₁ housed.size) ?_
  have empty₁ : (l.grant other c).live other = [] := by
    rw [Layout.grant_live]
    exact empty
  have next : 0 = ((l.grant other c).live other).length := by rw [empty₁, List.length_nil]
  have room : 0 + list.length ≤ (l.grant other c).room other := by
    have large := free.held.room (by rw [object₁]; rfl)
    omega
  have copied := copyImpl_spec shows₁ false next room
  rw [empty₁, List.nil_append] at copied
  have returned : ∀ (_ : Unit) m', Shows m' ((l.grant other c).setLive other list) →
      Spec (pure (some other) : Buffered t Pointer) m'
        (fun p m' => ∃ other, p = some other ∧ l.Free b c other ∧ other ≠ storage ∧
          l.live other = [] ∧ Shows m' ((l.grant other c).setLive other list))
        fun m' => l.MayThrow ∧ Shows m' l := by
    intro _ m' shows'
    exact ⟨other, rfl, free, apart, empty, shows'⟩
  refine Spec.bind ?_ returned fun _ => id
  split
  · rename_i nothrow
    refine copied.mono (fun _ _ => id) ?_
    rintro m₂ ⟨throwing, _⟩
    rw [nothrow] at throwing
    cases throwing
  · refine copied.onThrow ?_
    rintro m₂ ⟨_, may, shows₂⟩
    refine (deallocate_spec shows₂ free.held empty₁).mono (fun _ m₃ shows₃ => ?_) fun _ => id
    rw [free.release_grant] at shows₃
    rw [Layout.MayThrow, Layout.grant_throws] at may
    exact ⟨may, shows₃⟩

/-- The storage changes and the elements come along, or nothing happens. -/
theorem reserveImpl_spec (shows : Shows m l) (housed : l.Housed b o storage list)
    (enough : list.length ≤ c)
    (unused : t.N < c ∨ storage ≠ .internal b ∧ l.live (.internal b) = []) :
    Spec (reserveImpl b c) m
      (fun _ m' => ∃ other, l.Free b c other ∧ other ≠ storage ∧ l.live other = [] ∧
        Shows m' (l.moved b o storage other c list))
      fun m' => l.MayThrow ∧ Shows m' l := by
  unfold reserveImpl
  refine (moveToNewBuffer_spec shows housed enough unused).bind ?_ fun _ => id
  rintro p m₁ ⟨other, rfl, free, apart, empty, shows₁⟩
  have housed₁ : ((l.grant other c).setLive other list).Housed b o storage list :=
    housed.elsewhere apart
  refine (autoBufferDestroy_spec shows₁ housed₁).bind (fun _ m₂ shows₂ => ?_) fun _ => id
  have object₂ : ((((l.grant other c).setLive other list).setLive storage []).release
      storage).objects b = some o := by
    rw [Layout.release_objects]
    exact housed₁.object
  refine Spec.after (object_eq shows₂ object₂) ?_
  refine (setObject_spec shows₂ _).bind (fun _ m₃ shows₃ => ?_) fun _ => id
  have fits : decide (o.size ≤ c) = true := by
    rw [housed.size]
    exact decide_eq_true enough
  rw [spec_assert]
  exact ⟨fits, other, free, apart, empty, shows₃⟩

end AutoBuffer

end Signals2
