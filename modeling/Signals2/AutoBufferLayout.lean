/-
What the memory of the buffers shows: in each storage a list of live elements, from its
begin on.  The functions of the class construct behind that list and destroy from its end,
so every one of them changes the layout in a way that can be written down.
-/

import Mathlib.Tactic.Linarith
import Signals2.AutoBuffer
import Signals2.Library.ForwardCopies

namespace Signals2

open FalliblePrograms FalliblePrograms.Program ForwardCopies AutoBuffer

/-- `live` are the elements of a storage; `count` is the number of all of them. -/
structure Layout (t : BufferTemplate) where
  objects : BufferName → Option AutoBuffer
  blocks : Nat → Option Nat
  live : Storage → List t.T
  count : Int
  throws : Nat → Bool

variable {t : BufferTemplate}

namespace Layout

/-- Some operation throws. -/
def MayThrow (l : Layout t) : Prop := ∃ n, l.throws n = true

def room (l : Layout t) : Storage → Nat
  | .internal b => if (l.objects b).isSome then t.N else 0
  | .block k => (l.blocks k).getD 0

def setLive (l : Layout t) (storage : Storage) (list : List t.T) : Layout t :=
  { l with
    live := Function.update l.live storage list
    count := l.count + list.length - (l.live storage).length }

def setObject (l : Layout t) (b : BufferName) (o : Option AutoBuffer) : Layout t :=
  { l with objects := Function.update l.objects b o }

def newBlock (l : Layout t) (k capacity : Nat) : Layout t :=
  { l with blocks := Function.update l.blocks k (some capacity) }

def freeBlock (l : Layout t) (k : Nat) : Layout t :=
  { l with blocks := Function.update l.blocks k none }

variable {l : Layout t} {storage other : Storage} {list list' : List t.T} {b : BufferName}

@[simp] theorem setLive_live : (l.setLive storage list).live storage = list :=
  Function.update_self _ _ _

theorem setLive_live_other (apart : other ≠ storage) :
    (l.setLive storage list).live other = l.live other :=
  Function.update_of_ne apart _ _

@[simp] theorem setLive_objects : (l.setLive storage list).objects = l.objects := rfl

@[simp] theorem setLive_blocks : (l.setLive storage list).blocks = l.blocks := rfl

@[simp] theorem setLive_room : (l.setLive storage list).room other = l.room other := by
  cases other <;> rfl

@[simp] theorem setLive_setLive :
    (l.setLive storage list).setLive storage list' = l.setLive storage list' := by
  unfold setLive
  simp only [Function.update_idem, Function.update_self, Layout.mk.injEq, true_and, and_true]
  omega

theorem setLive_same (same : l.live storage = list) : l.setLive storage list = l := by
  subst same
  unfold setLive
  rw [Function.update_eq_self]
  have count : l.count + (l.live storage).length - (l.live storage).length = l.count := by omega
  rw [count]

@[simp] theorem setObject_live (o : Option AutoBuffer) :
    (l.setObject b o).live = l.live := rfl

theorem setObject_setLive (o : Option AutoBuffer) :
    (l.setObject b o).setLive storage list = (l.setLive storage list).setObject b o := rfl

@[simp] theorem setObject_blocks (o : Option AutoBuffer) :
    (l.setObject b o).blocks = l.blocks := rfl

theorem newBlock_room_other {k c : Nat} (apart : storage ≠ .block k) :
    (l.newBlock k c).room storage = l.room storage := by
  cases storage with
  | internal b => rfl
  | block k' =>
      have different : k' ≠ k := fun same => apart (congrArg Storage.block same)
      simp [room, newBlock, different]

@[simp] theorem newBlock_room {k c : Nat} : (l.newBlock k c).room (.block k) = c := by
  simp [room, newBlock]

end Layout

/-- The memory shows the layout.  Elements with a trivial destructor need not go before
others take their place. -/
structure Shows (m : BufferMemory t) (l : Layout t) : Prop where
  objects : m.objects = l.objects
  blocks : m.blocks = l.blocks
  throws : m.throws = l.throws
  cells : ∀ storage i, i < (l.live storage).length →
    m.cells storage i = (l.live storage)[i]?
  beyond : t.traits.trivialDestructor = false → ∀ storage i, (l.live storage).length ≤ i →
    m.cells storage i = none
  counted : t.traits.trivialDestructor = false → (m.constructed : Int) = m.destroyed + l.count
  fits : ∀ storage, (l.live storage).length ≤ l.room storage
  fresh : ∀ k, m.nextBlock ≤ k → l.blocks k = none

namespace Shows

variable {m m' : BufferMemory t} {l : Layout t} {storage other : Storage} {list : List t.T}
variable {b : BufferName}

theorem room (shows : Shows m l) (storage : Storage) : m.room storage = l.room storage := by
  cases storage with
  | internal b => simp only [BufferMemory.room, Layout.room, shows.objects]
  | block k => simp only [BufferMemory.room, Layout.room, shows.blocks]

theorem tick (shows : Shows m l) : Shows { m with ticks := m.ticks + 1 } l :=
  { shows with }

/-- A block that has not been handed out holds nothing. -/
theorem unallocated (shows : Shows m l) {k : Nat} (free : l.blocks k = none) :
    l.live (.block k) = [] := by
  have fits := shows.fits (.block k)
  simp only [Layout.room, free, Option.getD_none] at fits
  exact List.eq_nil_of_length_eq_zero (Nat.le_zero.mp fits)

/-- An object that is not there has nothing in its storage. -/
theorem absent (shows : Shows m l) (gone : l.objects b = none) : l.live (.internal b) = [] := by
  have fits := shows.fits (.internal b)
  simp only [Layout.room, gone, Option.isSome_none, Bool.false_eq_true, if_false] at fits
  exact List.eq_nil_of_length_eq_zero (Nat.le_zero.mp fits)

/-- One cell changes, and with it the elements of its storage. -/
theorem setCell (shows : Shows m l) {i : Nat} {cell : Option t.T} {constructed destroyed : Nat}
    (within : ∀ j < list.length,
      (Function.update (m.cells storage) i cell) j = list[j]?)
    (outside : t.traits.trivialDestructor = false → ∀ j, list.length ≤ j →
      (Function.update (m.cells storage) i cell) j = none)
    (counted : t.traits.trivialDestructor = false → (constructed : Int) + m.destroyed +
      (l.live storage).length = m.constructed + destroyed + list.length)
    (room : list.length ≤ l.room storage) :
    Shows { m.setCell storage i cell with constructed := constructed, destroyed := destroyed }
      (l.setLive storage list) where
  objects := shows.objects
  blocks := shows.blocks
  throws := shows.throws
  cells other j inside := by
    by_cases same : other = storage
    · subst same
      rw [Layout.setLive_live] at inside ⊢
      simpa [BufferMemory.setCell] using within j inside
    · rw [Layout.setLive_live_other same] at inside ⊢
      simpa [BufferMemory.setCell, same] using shows.cells other j inside
  beyond runs other j inside := by
    by_cases same : other = storage
    · subst same
      rw [Layout.setLive_live] at inside
      simpa [BufferMemory.setCell] using outside runs j inside
    · rw [Layout.setLive_live_other same] at inside
      simpa [BufferMemory.setCell, same] using shows.beyond runs other j inside
  counted runs := by
    have before := shows.counted runs
    have change := counted runs
    change (constructed : Int) = destroyed + (l.count + list.length - (l.live storage).length)
    omega
  fits other := by
    rw [Layout.setLive_room]
    by_cases same : other = storage
    · subst same
      rw [Layout.setLive_live]
      exact room
    · rw [Layout.setLive_live_other same]
      exact shows.fits other
  fresh := shows.fresh

theorem setObject (shows : Shows m l) {o : AutoBuffer} :
    Shows { m with objects := Function.update m.objects b (some o) }
      (l.setObject b (some o)) where
  objects := by
    simp only [Layout.setObject, shows.objects]
  blocks := shows.blocks
  throws := shows.throws
  cells := shows.cells
  beyond := shows.beyond
  counted := shows.counted
  fits storage := by
    have fits := shows.fits storage
    cases storage with
    | block k => exact fits
    | internal b' =>
        by_cases same : b' = b
        · subst same
          refine Nat.le_trans fits ?_
          simp only [Layout.room, Layout.setObject, Function.update_self, Option.isSome_some,
            if_true]
          split
          · exact Nat.le_refl _
          · exact Nat.zero_le _
        · simpa [Layout.room, Layout.setObject, same] using fits
  fresh := shows.fresh

/-- Trivial destructors need not be called. -/
theorem forget (shows : Shows m l) (trivial : t.traits.trivialDestructor = true)
    {list : List t.T} (within : ∀ j < list.length, m.cells storage j = list[j]?)
    (room : list.length ≤ l.room storage) : Shows m (l.setLive storage list) where
  objects := shows.objects
  blocks := shows.blocks
  throws := shows.throws
  cells other j inside := by
    by_cases same : other = storage
    · subst same
      rw [Layout.setLive_live] at inside ⊢
      exact within j inside
    · rw [Layout.setLive_live_other same] at inside ⊢
      exact shows.cells other j inside
  beyond runs := by
    rw [trivial] at runs
    cases runs
  counted runs := by
    rw [trivial] at runs
    cases runs
  fits other := by
    rw [Layout.setLive_room]
    by_cases same : other = storage
    · subst same
      rw [Layout.setLive_live]
      exact room
    · rw [Layout.setLive_live_other same]
      exact shows.fits other
  fresh := shows.fresh

end Shows

namespace AutoBuffer

variable {m : BufferMemory t} {l : Layout t} {storage : Storage} {b : BufferName}
variable {i start n : Nat} {v : t.T} {values : List t.T}

/-! ### Single elements -/

theorem mayThrow_spec (shows : Shows m l) :
    Spec mayThrow m (fun _ m' => Shows m' l) fun m' => l.MayThrow ∧ Shows m' l := by
  unfold Spec mayThrow
  cases throws : m.throws m.ticks with
  | true =>
      rw [shows.throws] at throws
      exact ⟨⟨_, throws⟩, shows.tick⟩
  | false => exact shows.tick

/-- Nothing happens, or an exception. -/
theorem unless_spec {nothrow : Bool} (shows : Shows m l) :
    Spec (if nothrow then pure () else mayThrow) m (fun _ m' => Shows m' l)
      fun m' => nothrow = false ∧ l.MayThrow ∧ Shows m' l := by
  cases nothrow with
  | true => exact shows
  | false => exact (mayThrow_spec shows).mono (fun _ _ => id) fun m' thrown => ⟨rfl, thrown⟩

theorem copyMayThrow_spec (shows : Shows m l) :
    Spec copyMayThrow m (fun _ m' => Shows m' l)
      fun m' => t.traits.nothrowCopy = false ∧ l.MayThrow ∧ Shows m' l :=
  unless_spec shows

theorem assignMayThrow_spec (shows : Shows m l) :
    Spec assignMayThrow m (fun _ m' => Shows m' l) fun m' => l.MayThrow ∧ Shows m' l :=
  (unless_spec shows).mono (fun _ _ => id) fun _ thrown => thrown.2

theorem constructorMayThrow_spec (shows : Shows m l) :
    Spec constructorMayThrow m (fun _ m' => Shows m' l) fun m' => l.MayThrow ∧ Shows m' l :=
  (unless_spec shows).mono (fun _ _ => id) fun _ thrown => thrown.2

theorem readElement_eq (shows : Shows m l) (inside : i < (l.live storage).length) :
    readElement (some storage) i m = .returned ((l.live storage)[i]) m := by
  have fits := shows.fits storage
  have cell := shows.cells storage i inside
  rw [List.getElem?_eq_getElem inside] at cell
  have within : ¬ m.room storage ≤ i := by
    rw [shows.room]
    omega
  simp only [readElement, if_neg within, cell]

theorem constructElement_spec (shows : Shows m l) (next : i = (l.live storage).length)
    (room : i < l.room storage) {throws : BufferMemory t → Prop} :
    Spec (constructElement (some storage) i v) m
      (fun _ m' => Shows m' (l.setLive storage (l.live storage ++ [v]))) throws := by
  subst next
  have within : ¬ m.room storage ≤ (l.live storage).length := by
    rw [shows.room]
    omega
  have free : (t.traits.trivialDestructor || (m.cells storage (l.live storage).length).isNone) =
      true := by
    cases trivial : t.traits.trivialDestructor with
    | true => rfl
    | false => simp [shows.beyond trivial storage _ (Nat.le_refl _)]
  simp only [Spec, constructElement, if_neg within, if_pos free]
  refine shows.setCell ?_ ?_ ?_ ?_
  · intro j inside
    rw [List.length_append, List.length_singleton] at inside
    by_cases last : j = (l.live storage).length
    · subst last
      simp
    · have earlier : j < (l.live storage).length := by omega
      rw [Function.update_of_ne last, List.getElem?_append_left earlier]
      exact shows.cells storage j earlier
  · intro runs j outside
    rw [List.length_append, List.length_singleton] at outside
    rw [Function.update_of_ne (by omega)]
    exact shows.beyond runs storage j (by omega)
  · intro _
    rw [List.length_append, List.length_singleton]
    simp only [BufferMemory.setCell]
    push_cast
    omega
  · rw [List.length_append, List.length_singleton]
    exact room

theorem destroyElement_spec (shows : Shows m l) {list : List t.T}
    (last : l.live storage = list ++ [v]) (at_ : i = list.length)
    {throws : BufferMemory t → Prop} :
    Spec (destroyElement (some storage) i) m (fun _ m' => Shows m' (l.setLive storage list))
      throws := by
  subst at_
  have inside : list.length < (l.live storage).length := by
    rw [last, List.length_append, List.length_singleton]
    omega
  have cells : ∀ j < list.length, m.cells storage j = list[j]? := by
    intro j earlier
    rw [shows.cells storage j (by omega), last, List.getElem?_append_left earlier]
  have room : list.length ≤ l.room storage := Nat.le_trans (Nat.le_of_lt inside) (shows.fits storage)
  cases trivial : t.traits.trivialDestructor with
  | true =>
      simp only [Spec, destroyElement, trivial, if_true]
      exact shows.forget trivial cells room
  | false =>
      have within : ¬ m.room storage ≤ list.length := by
        have fits := shows.fits storage
        rw [shows.room]
        omega
      have there : (m.cells storage list.length).isNone = false := by
        rw [shows.cells storage _ inside, List.getElem?_eq_getElem inside]
        rfl
      simp only [Spec, destroyElement, trivial, Bool.false_eq_true, if_false, if_neg within, there]
      refine shows.setCell ?_ ?_ ?_ room
      · intro j earlier
        rw [Function.update_of_ne (by omega)]
        exact cells j earlier
      · intro runs j outside
        by_cases same : j = list.length
        · subst same
          exact Function.update_self _ _ _
        · rw [Function.update_of_ne same]
          refine shows.beyond runs storage j ?_
          rw [last, List.length_append, List.length_singleton]
          omega
      · intro _
        rw [last, List.length_append, List.length_singleton]
        simp only [BufferMemory.setCell]
        push_cast
        omega

/-- Writing over an element that is there. -/
private theorem Shows.write (shows : Shows m l) (inside : i < (l.live storage).length) :
    Shows (m.setCell storage i (some v)) (l.setLive storage ((l.live storage).set i v)) := by
  refine shows.setCell ?_ ?_ ?_ ?_
  · intro j below
    rw [List.length_set] at below
    by_cases same : j = i
    · subst same
      rw [Function.update_self, List.getElem?_set_self inside]
    · rw [Function.update_of_ne same, List.getElem?_set_ne (Ne.symm same)]
      exact shows.cells storage j below
  · intro runs j outside
    rw [List.length_set] at outside
    rw [Function.update_of_ne (by omega)]
    exact shows.beyond runs storage j outside
  · intro _
    rw [List.length_set]
  · rw [List.length_set]
    exact shows.fits storage

theorem assignElement_spec (shows : Shows m l) (inside : i < (l.live storage).length)
    {throws : BufferMemory t → Prop} :
    Spec (assignElement (some storage) i v) m
      (fun _ m' => Shows m' (l.setLive storage ((l.live storage).set i v))) throws := by
  have within : ¬ m.room storage ≤ i := by
    have fits := shows.fits storage
    rw [shows.room]
    omega
  have there : (m.cells storage i).isNone = false := by
    rw [shows.cells storage _ inside, List.getElem?_eq_getElem inside]
    rfl
  simp only [Spec, assignElement, if_neg within, there, Bool.false_eq_true, if_false]
  exact Shows.write shows inside

theorem overwriteElement_spec (shows : Shows m l) (inside : i < (l.live storage).length)
    {throws : BufferMemory t → Prop} :
    Spec (overwriteElement (some storage) i v) m
      (fun _ m' => Shows m' (l.setLive storage ((l.live storage).set i v))) throws := by
  have within : ¬ m.room storage ≤ i := by
    have fits := shows.fits storage
    rw [shows.room]
    omega
  simp only [Spec, overwriteElement, if_neg within]
  exact Shows.write shows inside

/-! ### Ranges of elements -/

theorem readRange_eq (shows : Shows m l) (within : start + n ≤ (l.live storage).length) :
    readRange (some storage) start n m =
      .returned (((l.live storage).drop start).take n) m := by
  induction n generalizing start with
  | zero => rfl
  | succ n ih =>
      have here : start < (l.live storage).length := by omega
      have rest : start + 1 + n ≤ (l.live storage).length := by omega
      have later := ih rest
      have first := readElement_eq shows here
      rw [List.drop_eq_getElem_cons here, List.take_succ_cons]
      simp only [readRange, bind, first, later, pure]

/-- A range that begins with the storage. -/
theorem readRange_all (shows : Shows m l) {list : List t.T} (live : l.live storage = list)
    (whole : n = list.length) : readRange (some storage) 0 n m = .returned list m := by
  subst live whole
  have read : readRange (some storage) 0 (l.live storage).length m = _ :=
    readRange_eq shows (by omega)
  rwa [List.drop_zero, List.take_length] at read

/-- Elements are constructed behind those that are there, or the exception leaves none. -/
theorem uninitializedCopy_spec (shows : Shows m l) (next : start = (l.live storage).length)
    (room : start + values.length ≤ l.room storage) :
    Spec (uninitializedCopy (some storage) start values) m
      (fun _ m' => Shows m' (l.setLive storage (l.live storage ++ values)))
      fun m' => t.traits.nothrowCopy = false ∧ l.MayThrow ∧ Shows m' l := by
  induction values generalizing m l start with
  | nil =>
      rw [List.append_nil, Layout.setLive_same rfl]
      exact shows
  | cons v rest ih =>
      rw [List.length_cons] at room
      refine (copyMayThrow_spec shows).bind (fun _ m₁ shows₁ => ?_) fun _ => id
      refine (constructElement_spec shows₁ next (by omega)).bind (fun _ m₂ shows₂ => ?_)
        fun _ => id
      have next₂ : start + 1 =
          ((l.setLive storage (l.live storage ++ [v])).live storage).length := by
        rw [Layout.setLive_live, List.length_append, List.length_singleton, next]
      have later := ih shows₂ next₂ (by rw [Layout.setLive_room]; omega)
      rw [Layout.setLive_live, Layout.setLive_setLive, List.append_assoc] at later
      refine later.onThrow fun m₃ thrown => ?_
      -- what was constructed here goes, and the layout is the one before
      have undone : Spec (destroyElement (some storage) start) m₃
          (fun _ m' => Shows m' ((l.setLive storage (l.live storage ++ [v])).setLive storage
            (l.live storage)))
          fun m' => t.traits.nothrowCopy = false ∧ l.MayThrow ∧ Shows m' l :=
        destroyElement_spec thrown.2.2 Layout.setLive_live next
      rw [Layout.setLive_setLive, Layout.setLive_same rfl] at undone
      exact undone.mono (fun _ m₄ shows₄ => ⟨thrown.1, thrown.2.1, shows₄⟩) fun _ => id

theorem memcpyConstruct_spec (shows : Shows m l) (next : start = (l.live storage).length)
    (room : start + values.length ≤ l.room storage) {throws : BufferMemory t → Prop} :
    Spec (memcpyConstruct (some storage) start values) m
      (fun _ m' => Shows m' (l.setLive storage (l.live storage ++ values))) throws := by
  induction values generalizing m l start with
  | nil =>
      rw [List.append_nil, Layout.setLive_same rfl]
      exact shows
  | cons v rest ih =>
      rw [List.length_cons] at room
      refine (constructElement_spec shows next (by omega)).bind (fun _ m₁ shows₁ => ?_)
        fun _ => id
      have next₁ : start + 1 =
          ((l.setLive storage (l.live storage ++ [v])).live storage).length := by
        rw [Layout.setLive_live, List.length_append, List.length_singleton, next]
      have later := ih shows₁ next₁ (by rw [Layout.setLive_room]; omega)
      rwa [Layout.setLive_live, Layout.setLive_setLive, List.append_assoc] at later

theorem copyImpl_spec (shows : Shows m l) (pointers : Bool)
    (next : start = (l.live storage).length)
    (room : start + values.length ≤ l.room storage) :
    Spec (copyImpl pointers (some storage) start values) m
      (fun _ m' => Shows m' (l.setLive storage (l.live storage ++ values)))
      fun m' => t.traits.nothrowCopy = false ∧ l.MayThrow ∧ Shows m' l := by
  unfold copyImpl
  split
  · exact memcpyConstruct_spec shows next room
  · exact uninitializedCopy_spec shows next room

/-- An exception has left other elements in the storage, but as many. -/
def Scrambled (l : Layout t) (storage : Storage) (m : BufferMemory t) : Prop :=
  l.MayThrow ∧ ∃ list, list.length = (l.live storage).length ∧
    Shows m (l.setLive storage list)

theorem scrambled_of_shows (may : l.MayThrow) (shows : Shows m l) : Scrambled l storage m :=
  ⟨may, l.live storage, rfl, by rw [Layout.setLive_same rfl]; exact shows⟩

theorem Scrambled.setLive {list : List t.T} (length : list.length = (l.live storage).length)
    (scrambled : Scrambled (l.setLive storage list) storage m) : Scrambled l storage m := by
  obtain ⟨may, list', same, shows⟩ := scrambled
  rw [Layout.setLive_live, length] at same
  rw [Layout.setLive_setLive] at shows
  exact ⟨may, list', same, shows⟩

theorem assignEach_spec (shows : Shows m l)
    (within : start + values.length ≤ (l.live storage).length) :
    Spec (assignEach (some storage) start values) m
      (fun _ m' => Shows m' (l.setLive storage (overwrite (l.live storage) start values)))
      (Scrambled l storage) := by
  induction values generalizing m l start with
  | nil =>
      rw [overwrite_nil, Layout.setLive_same rfl]
      exact shows
  | cons v rest ih =>
      rw [List.length_cons] at within
      refine (assignMayThrow_spec shows).bind (fun _ m₁ shows₁ => ?_)
        fun m' thrown => scrambled_of_shows thrown.1 thrown.2
      refine (assignElement_spec shows₁ (by omega)).bind (fun _ m₂ shows₂ => ?_) fun _ => id
      have within₂ : start + 1 + rest.length ≤
          ((l.setLive storage ((l.live storage).set start v)).live storage).length := by
        rw [Layout.setLive_live, List.length_set]
        omega
      have later := ih shows₂ within₂
      rw [Layout.setLive_live, Layout.setLive_setLive, overwrite_cons (by omega)] at later
      exact later.mono (fun _ _ => id) fun m' => Scrambled.setLive List.length_set

theorem memcpyAssign_spec (shows : Shows m l)
    (within : start + values.length ≤ (l.live storage).length)
    {throws : BufferMemory t → Prop} :
    Spec (memcpyAssign (some storage) start values) m
      (fun _ m' => Shows m' (l.setLive storage (overwrite (l.live storage) start values)))
      throws := by
  induction values generalizing m l start with
  | nil =>
      rw [overwrite_nil, Layout.setLive_same rfl]
      exact shows
  | cons v rest ih =>
      rw [List.length_cons] at within
      refine (overwriteElement_spec shows (by omega)).bind (fun _ m₁ shows₁ => ?_) fun _ => id
      have within₁ : start + 1 + rest.length ≤
          ((l.setLive storage ((l.live storage).set start v)).live storage).length := by
        rw [Layout.setLive_live, List.length_set]
        omega
      have later := ih shows₁ within₁
      rwa [Layout.setLive_live, Layout.setLive_setLive, overwrite_cons (by omega)] at later

theorem assignImpl_spec (shows : Shows m l)
    (within : start + values.length ≤ (l.live storage).length) :
    Spec (assignImpl (some storage) start values) m
      (fun _ m' => Shows m' (l.setLive storage (overwrite (l.live storage) start values)))
      (Scrambled l storage) := by
  unfold assignImpl
  split
  · exact memcpyAssign_spec shows within
  · exact assignEach_spec shows within

/-- What `std::copy` makes of the elements of a storage. -/
def copied (t : BufferTemplate) (list : List t.T) (first n dest : Nat) : List t.T :=
  if t.traits.triviallyCopyable then blockMove list first dest n
  else forwardCopy list first dest n

theorem copied_length {list : List t.T} {first dest : Nat} (room : dest + n ≤ list.length) :
    (copied t list first n dest).length = list.length := by
  unfold copied
  split
  · exact blockMove_length room
  · exact forwardCopy_length

theorem stdCopy_spec (shows : Shows m l) {first dest : Nat}
    (source : first + n ≤ (l.live storage).length)
    (target : dest + n ≤ (l.live storage).length) :
    Spec (stdCopy (some storage) first n dest) m
      (fun _ m' => Shows m' (l.setLive storage (copied t (l.live storage) first n dest)))
      (Scrambled l storage) := by
  unfold stdCopy copied
  split
  · refine Spec.after (readRange_eq shows source) ?_
    apply memcpyAssign_spec shows
    rw [List.length_take, List.length_drop]
    omega
  · -- after `k` rounds the first `k` elements have been copied
    let copiedUpTo : Nat → BufferMemory t → Prop := fun k m' =>
      Shows m' (l.setLive storage (forwardCopy (l.live storage) first dest k))
    refine @spec_repeatUpTo _ _ _ _ _ _ copiedUpTo ?_ ?_
    · simp only [copiedUpTo]
      rw [forwardCopy, Layout.setLive_same rfl]
      exact shows
    · intro k below m₁ shows₁
      have inside : first + k < ((l.setLive storage
          (forwardCopy (l.live storage) first dest k)).live storage).length := by
        rw [Layout.setLive_live, forwardCopy_length]
        omega
      refine Spec.after (readElement_eq shows₁ inside) ?_
      refine (assignMayThrow_spec shows₁).bind (fun _ m₂ shows₂ => ?_) fun m' thrown =>
        (scrambled_of_shows thrown.1 thrown.2).setLive forwardCopy_length
      refine (assignElement_spec shows₂ ?_).mono (fun _ m₃ shows₃ => ?_) fun _ => id
      · rw [Layout.setLive_live, forwardCopy_length]
        omega
      · simp only [Layout.setLive_setLive, Layout.setLive_live] at shows₃ inside
        show Shows m₃ (l.setLive storage (copyOne (forwardCopy (l.live storage) first dest k)
          (first + k) (dest + k)))
        rwa [copyOne_eq_set inside]

end AutoBuffer

end Signals2
