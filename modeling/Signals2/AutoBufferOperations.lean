/-
What the functions of one buffer do to its elements.  The other buffers stay as they are.
-/

import Signals2.AutoBufferAccounts

namespace Signals2

open FalliblePrograms FalliblePrograms.Program ForwardCopies AutoBuffer

variable {t : BufferTemplate}

/-- All buffers but one: their objects and elements, and which operations throw. -/
structure Others (t : BufferTemplate) where
  objects : BufferName → Option AutoBuffer
  lists : Contents t
  throws : Nat → Bool

/-- Some operation throws. -/
def Others.MayThrow (w : Others t) : Prop := ∃ n, w.throws n = true

/-- Among other buffers, `b` is this object with these elements. -/
structure Keeping (w : Others t) (b : BufferName) (o : AutoBuffer) (list : List t.T)
    (l : Layout t) (storage : Storage) (m : BufferMemory t) : Prop where
  shows : Shows m l
  accounted : l.Accounted (Function.update w.lists b (some list))
  housed : l.Housed b o storage list
  others : ∀ r, r ≠ b → l.objects r = w.objects r
  throws : l.throws = w.throws

def Keeps (w : Others t) (b : BufferName) (o : AutoBuffer) (list : List t.T)
    (m : BufferMemory t) : Prop :=
  ∃ l storage, Keeping w b o list l storage m

variable {w : Others t} {b : BufferName} {o : AutoBuffer} {list list' values : List t.T}
variable {l : Layout t} {storage other : Storage} {m m' : BufferMemory t} {n start c : Nat}
variable {Value : Type}

namespace Keeping

theorem mayThrow (keeping : Keeping w b o list l storage m) (may : l.MayThrow) : w.MayThrow := by
  rw [Layout.MayThrow, keeping.throws] at may
  exact may

/-- The memory has changed, and the layout has not. -/
theorem shown (keeping : Keeping w b o list l storage m) (shows : Shows m' l) :
    Keeps w b o list m' :=
  ⟨l, storage, { keeping with shows := shows }⟩

theorem refill (keeping : Keeping w b o list l storage m) (fits : list'.length ≤ o.capacity)
    (shows : Shows m' ((l.setLive storage list').setObject b
      (some { o with size := list'.length }))) :
    Keeps w b { o with size := list'.length } list' m' := by
  have accounted := keeping.accounted.refill keeping.housed fits
  rw [Function.update_idem] at accounted
  exact ⟨_, storage,
    { shows := shows
      accounted := accounted
      housed := keeping.housed.refill fits
      others := fun r different =>
        (Function.update_of_ne different _ _).trans (keeping.others r different)
      throws := keeping.throws }⟩

/-- As many elements, but other ones. -/
theorem rewrite (keeping : Keeping w b o list l storage m) (size : list'.length = list.length)
    (shows : Shows m' (l.setLive storage list')) : Keeps w b o list' m' := by
  have fits : list'.length ≤ o.capacity := by
    rw [size]
    exact keeping.housed.fits
  have same : { o with size := list'.length } = o := by
    rw [size, ← keeping.housed.size]
  have object : (l.setLive storage list').setObject b (some o) = l.setLive storage list' := by
    rw [← keeping.housed.object, ← Layout.setLive_objects, Layout.setObject,
      Function.update_eq_self]
  have kept : Keeps w b { o with size := list'.length } list' m' := by
    refine keeping.refill fits ?_
    rw [same, object]
    exact shows
  rwa [same] at kept

theorem scrambled (keeping : Keeping w b o list l storage m) (left : Scrambled l storage m') :
    w.MayThrow ∧ ∃ list', list'.length = list.length ∧ Keeps w b o list' m' := by
  obtain ⟨may, list', size, shows⟩ := left
  rw [keeping.housed.live] at size
  exact ⟨keeping.mayThrow may, list', size, keeping.rewrite size shows⟩

theorem moved (keeping : Keeping w b o list l storage m) (free : l.Free b c other)
    (apart : other ≠ storage) (empty : l.live other = []) (fits : list.length ≤ c)
    (large : t.N ≤ c) (shows : Shows m' (l.moved b o storage other c list)) :
    Keeps w b { o with buffer := some other, capacity := c } list m' := by
  obtain ⟨housed, accounted⟩ :=
    keeping.accounted.moved keeping.housed free apart empty fits large
  exact ⟨_, other,
    { shows := shows
      accounted := accounted
      housed := housed
      others := by
        intro r different
        rw [← keeping.others r different]
        unfold Layout.moved
        simp [Layout.setObject, different]
      throws := by
        rw [← keeping.throws]
        unfold Layout.moved
        simp [Layout.setObject, Layout.setLive] }⟩

end Keeping

namespace Keeps

theorem object (keeps : Keeps w b o list m) : object b m = .returned o m := by
  obtain ⟨l, storage, keeping⟩ := keeps
  exact object_eq keeping.shows keeping.housed.object

theorem there (keeps : Keeps w b o list m) : m.objects b = some o := by
  obtain ⟨l, storage, keeping⟩ := keeps
  rw [keeping.shows.objects]
  exact keeping.housed.object

/-- Other elements in the same objects. -/
theorem objects_eq (keeps : Keeps w b o list m) (keeps' : Keeps w b o list' m') :
    m'.objects = m.objects := by
  funext name
  by_cases same : name = b
  · rw [same, keeps.there, keeps'.there]
  · obtain ⟨l, storage, keeping⟩ := keeps
    obtain ⟨l', storage', keeping'⟩ := keeps'
    rw [keeping.shows.objects, keeping'.shows.objects, keeping.others name same,
      keeping'.others name same]

theorem size (keeps : Keeps w b o list m) : o.size = list.length := by
  obtain ⟨l, storage, keeping⟩ := keeps
  exact keeping.housed.size

theorem fits (keeps : Keeps w b o list m) : list.length ≤ o.capacity := by
  obtain ⟨l, storage, keeping⟩ := keeps
  exact keeping.housed.fits

theorem least (keeps : Keeps w b o list m) : t.N ≤ o.capacity := by
  obtain ⟨l, storage, keeping⟩ := keeps
  exact keeping.housed.least

/-- A buffer in its own storage has the capacity `N`. -/
theorem onStack (keeps : Keeps w b o list m) : o.isOnStack t = true ↔ o.capacity = t.N := by
  have least := keeps.least
  simp only [isOnStack, decide_eq_true_eq]
  omega

theorem isValid (keeps : Keeps w b o list m) : o.isValid t b = true := by
  obtain ⟨l, storage, keeping⟩ := keeps
  exact keeping.housed.isValid

theorem assertValid (keeps : Keeps w b o list m) : assertValid b m = .returned () m := by
  obtain ⟨l, storage, keeping⟩ := keeps
  exact assertValid_eq keeping.shows keeping.housed.object keeping.housed.isValid

theorem assertValid_spec (keeps : Keeps w b o list m) {throws : BufferMemory t → Prop} :
    Spec (AutoBuffer.assertValid b) m (fun _ m' => Keeps w b o list m') throws := by
  unfold Spec
  rw [keeps.assertValid]
  exact keeps

theorem readRange (keeps : Keeps w b o list m) (within : start + n ≤ list.length) :
    readRange o.buffer start n m = .returned ((list.drop start).take n) m := by
  obtain ⟨l, storage, keeping⟩ := keeps
  rw [keeping.housed.buffer]
  have live := keeping.housed.live
  have read : AutoBuffer.readRange (some storage) start n m = _ :=
    readRange_eq keeping.shows (by rw [live]; exact within)
  rwa [live] at read

theorem readAll (keeps : Keeps w b o list m) :
    AutoBuffer.readRange o.buffer 0 o.size m = .returned list m := by
  have whole : 0 + list.length ≤ list.length := by omega
  have read := keeps.readRange whole
  rwa [List.drop_zero, List.take_length, ← keeps.size] at read

theorem readElement (keeps : Keeps w b o list m) (inside : start < list.length) :
    readElement o.buffer start m = .returned list[start] m := by
  obtain ⟨l, storage, keeping⟩ := keeps
  rw [keeping.housed.buffer]
  have live := keeping.housed.live
  subst live
  exact readElement_eq keeping.shows inside

end Keeps

/-- An exception has left the buffer with some elements. -/
def Leaves (w : Others t) (b : BufferName) (m : BufferMemory t) : Prop :=
  w.MayThrow ∧ ∃ o list, Keeps w b o list m

namespace AutoBuffer

/-! ### Elements behind the last one -/

section Behind

variable (shows : Shows m l) (housed : l.Housed b o storage list)
include shows housed

theorem constructBack_spec (room : list.length < o.capacity) (x : t.T)
    {throws : BufferMemory t → Prop} :
    Spec (constructElement o.buffer o.size x) m
      (fun _ m' => Shows m' (l.setLive storage (list ++ [x]))) throws := by
  have enough := housed.room
  have live := housed.live
  rw [housed.buffer, housed.size]
  subst live
  exact constructElement_spec shows rfl (by omega)

theorem copyBack_spec (room : list.length + values.length ≤ o.capacity) (pointers : Bool) :
    Spec (copyImpl pointers o.buffer o.size values) m
      (fun _ m' => Shows m' (l.setLive storage (list ++ values)))
      fun m' => t.traits.nothrowCopy = false ∧ l.MayThrow ∧ Shows m' l := by
  have enough := housed.room
  have live := housed.live
  rw [housed.buffer, housed.size]
  subst live
  exact copyImpl_spec shows pointers rfl (by omega)

theorem fillBack_spec (room : list.length + values.length ≤ o.capacity) :
    Spec (uninitializedCopy o.buffer o.size values) m
      (fun _ m' => Shows m' (l.setLive storage (list ++ values)))
      fun m' => t.traits.nothrowCopy = false ∧ l.MayThrow ∧ Shows m' l := by
  have enough := housed.room
  have live := housed.live
  rw [housed.buffer, housed.size]
  subst live
  exact uninitializedCopy_spec shows rfl (by omega)

theorem memcpyBack_spec (room : list.length + values.length ≤ o.capacity)
    {throws : BufferMemory t → Prop} :
    Spec (memcpyConstruct o.buffer o.size values) m
      (fun _ m' => Shows m' (l.setLive storage (list ++ values))) throws := by
  have enough := housed.room
  have live := housed.live
  rw [housed.buffer, housed.size]
  subst live
  exact memcpyConstruct_spec shows rfl (by omega)

end Behind

/-- Elements have come behind the others, or gone, and then the size counts them. -/
theorem setSize_spec (keeping : Keeping w b o list l storage m)
    (shows : Shows m' (l.setLive storage list')) (fits : list'.length ≤ o.capacity)
    (size : n = list'.length) {throws : BufferMemory t → Prop} :
    Spec (setObject b { o with size := n }) m'
      (fun _ m' => Keeps w b { o with size := n } list' m') throws := by
  subst size
  refine (setObject_spec shows _).mono (fun _ m₁ shows₁ => ?_) fun _ => id
  exact keeping.refill fits shows₁

/-- The size counts more elements. -/
theorem growSize_spec (keeping : Keeping w b o list l storage m)
    (shows : Shows m' (l.setLive storage (list ++ values)))
    (room : list.length + values.length ≤ o.capacity) {throws : BufferMemory t → Prop} :
    Spec (setObject b { o with size := o.size + values.length }) m'
      (fun _ m' => Keeps w b { o with size := o.size + values.length } (list ++ values) m')
      throws := by
  refine setSize_spec keeping shows ?_ ?_
  · rw [List.length_append]
    exact room
  · rw [List.length_append, keeping.housed.size]

/-! ### Pushing without growing -/

theorem notFull (keeps : Keeps w b o list m) (room : list.length < o.capacity) :
    (!o.full) = true := by
  have size := keeps.size
  have different : o.size ≠ o.capacity := by omega
  simpa [full] using different

theorem uncheckedPushBack_spec (keeps : Keeps w b o list m) (room : list.length < o.capacity)
    (x : t.T) :
    Spec (uncheckedPushBack b x) m
      (fun _ m' => Keeps w b { o with size := o.size + 1 } (list ++ [x]) m')
      fun m' => w.MayThrow ∧ Keeps w b o list m' := by
  unfold uncheckedPushBack
  refine Spec.after keeps.object ?_
  refine Spec.after (assert_returned (notFull keeps room)) ?_
  obtain ⟨l, storage, keeping⟩ := keeps
  refine (copyMayThrow_spec keeping.shows).bind (fun _ m₁ shows₁ => ?_) fun m' thrown =>
    ⟨keeping.mayThrow thrown.2.1, keeping.shown thrown.2.2⟩
  refine (constructBack_spec shows₁ keeping.housed room x).bind (fun _ m₂ shows₂ => ?_) fun _ => id
  exact growSize_spec keeping shows₂ room

/-- What a default construction leaves. -/
def defaultElement (t : BufferTemplate) : t.T :=
  if t.traits.trivialConstructor then t.indeterminate else t.initial

theorem uncheckedPushBackDefault_spec (keeps : Keeps w b o list m)
    (room : list.length < o.capacity) :
    Spec (uncheckedPushBackDefault b) m
      (fun _ m' => Keeps w b { o with size := o.size + 1 } (list ++ [defaultElement t]) m')
      fun m' => w.MayThrow ∧ Keeps w b o list m' := by
  unfold uncheckedPushBackDefault
  refine Spec.after keeps.object ?_
  refine Spec.after (assert_returned (notFull keeps room)) ?_
  obtain ⟨l, storage, keeping⟩ := keeps
  refine (constructorMayThrow_spec keeping.shows).bind (fun _ m₁ shows₁ => ?_) fun m' thrown =>
    ⟨keeping.mayThrow thrown.1, keeping.shown thrown.2⟩
  refine (constructBack_spec shows₁ keeping.housed room _).bind (fun _ m₂ shows₂ => ?_) fun _ => id
  exact growSize_spec keeping shows₂ room

/-- The elements that `unchecked_push_back_n` leaves. -/
def grownElements (t : BufferTemplate) (n : Nat) : List t.T :=
  List.replicate n (if t.traits.trivialAssign then t.initial else defaultElement t)

theorem grownElements_length : (grownElements t n).length = n := List.length_replicate

theorem countFits (keeps : Keeps w b o list m) (room : list.length + n ≤ o.capacity) :
    decide ((o.size + n) % sizeLimit ≤ o.capacity) = true := by
  rw [keeps.size]
  exact decide_eq_true (Nat.le_trans (Nat.mod_le _ _) room)

theorem pushDefaults_spec (keeps : Keeps w b o list m) (room : list.length + n ≤ o.capacity) :
    Spec (repeatUpTo (fun _ => uncheckedPushBackDefault b) n) m
      (fun _ m' => Keeps w b { o with size := o.size + n }
        (list ++ List.replicate n (defaultElement t)) m') (Leaves w b) := by
  -- after `k` rounds there are `k` elements more
  let pushed : Nat → BufferMemory t → Prop := fun k m' =>
    Keeps w b { o with size := o.size + k } (list ++ List.replicate k (defaultElement t)) m'
  refine @spec_repeatUpTo _ _ _ _ _ _ pushed ?_ ?_
  · simp only [pushed, List.replicate_zero, List.append_nil]
    exact keeps
  · intro k below m₁ keeps₁
    have room₁ : (list ++ List.replicate k (defaultElement t)).length < o.capacity := by
      rw [List.length_append, List.length_replicate]
      omega
    refine (uncheckedPushBackDefault_spec keeps₁ room₁).mono (fun _ m₂ keeps₂ => ?_)
      fun m' thrown => ⟨thrown.1, _, _, thrown.2⟩
    simp only [pushed, List.replicate_succ', ← List.append_assoc]
    exact keeps₂

theorem uncheckedPushBackN_spec (keeps : Keeps w b o list m)
    (room : list.length + n ≤ o.capacity) :
    Spec (uncheckedPushBackN b n) m
      (fun _ m' => Keeps w b { o with size := o.size + n } (list ++ grownElements t n) m')
      (Leaves w b) := by
  unfold uncheckedPushBackN
  refine Spec.after keeps.object ?_
  refine Spec.after (assert_returned (countFits keeps room)) ?_
  have length : (List.replicate n t.initial).length = n := List.length_replicate
  split
  · rename_i trivial
    obtain ⟨l, storage, keeping⟩ := keeps
    have fits : list.length + (List.replicate n t.initial).length ≤ o.capacity := by
      rw [length]
      exact room
    refine (constructorMayThrow_spec keeping.shows).bind (fun _ m₁ shows₁ => ?_) fun m' thrown =>
      ⟨keeping.mayThrow thrown.1, o, list, keeping.shown thrown.2⟩
    refine (fillBack_spec shows₁ keeping.housed fits).bind (fun _ m₂ shows₂ => ?_)
      fun m' thrown => ⟨keeping.mayThrow thrown.2.1, o, list, keeping.shown thrown.2.2⟩
    rw [grownElements, if_pos trivial]
    refine setSize_spec keeping shows₂ ?_ ?_
    · rw [List.length_append, length]
      exact room
    · rw [List.length_append, length, keeping.housed.size]
  · rename_i trivial
    rw [grownElements, if_neg trivial]
    exact pushDefaults_spec keeps room

theorem uncheckedPushBackRange_spec (keeps : Keeps w b o list m)
    (room : list.length + values.length ≤ o.capacity) (pointers : Bool) :
    Spec (uncheckedPushBackRange b pointers values) m
      (fun _ m' => Keeps w b { o with size := o.size + values.length } (list ++ values) m')
      fun m' => w.MayThrow ∧ Keeps w b o list m' := by
  unfold uncheckedPushBackRange
  refine Spec.after keeps.object ?_
  have fits : decide (o.size + values.length ≤ o.capacity) = true := by
    rw [keeps.size]
    exact decide_eq_true room
  refine Spec.after (assert_returned fits) ?_
  obtain ⟨l, storage, keeping⟩ := keeps
  refine (copyBack_spec keeping.shows keeping.housed room pointers).bind
    (fun _ m₁ shows₁ => ?_) fun m' thrown => ⟨keeping.mayThrow thrown.2.1, keeping.shown thrown.2.2⟩
  exact growSize_spec keeping shows₁ room

/-! ### Growing -/

theorem growStorage_spec (keeps : Keeps w b o list m) (more : o.capacity < c) :
    Spec (reserveImpl b c) m
      (fun _ m' => ∃ p, Keeps w b { o with buffer := p, capacity := c } list m')
      fun m' => w.MayThrow ∧ Keeps w b o list m' := by
  obtain ⟨l, storage, keeping⟩ := keeps
  have housed := keeping.housed
  have fits := housed.fits
  have least := housed.least
  have large : t.N < c := by omega
  refine (reserveImpl_spec keeping.shows housed (by omega) (.inl large)).mono ?_ fun m' thrown =>
    ⟨keeping.mayThrow thrown.1, keeping.shown thrown.2⟩
  rintro _ m' ⟨other, free, apart, empty, shows⟩
  exact ⟨some other, keeping.moved free apart empty (by omega) (by omega) shows⟩

theorem newCapacityImpl_spec (keeps : Keeps w b o list m) (more : o.capacity < n) :
    newCapacityImpl b n m = .returned (max (t.newCapacity o.capacity) n) m := by
  have object := keeps.object
  simp only [newCapacityImpl, bind, object, assert_returned (decide_eq_true more), pure]

theorem reservePrecisely_spec (keeps : Keeps w b o list m) (n : Nat) :
    Spec (reservePrecisely b n) m
      (fun _ m' => ∃ p, Keeps w b { o with buffer := p, capacity := max o.capacity n } list m')
      fun m' => w.MayThrow ∧ Keeps w b o list m' := by
  unfold reservePrecisely
  refine Spec.after keeps.object ?_
  refine Spec.after (assert_returned (decide_eq_true keeps.least)) ?_
  split
  · rename_i enough
    rw [Nat.max_eq_left enough]
    exact ⟨o.buffer, keeps⟩
  · rename_i more
    rw [Nat.max_eq_right (by omega)]
    refine (growStorage_spec keeps (Nat.not_le.mp more)).bind ?_ fun _ => id
    rintro _ m₁ ⟨p, keeps₁⟩
    refine Spec.after keeps₁.object ?_
    rw [spec_assert]
    exact ⟨decide_eq_true rfl, p, keeps₁⟩

/-- The capacity after `reserve( n )`. -/
def reserved (t : BufferTemplate) (capacity n : Nat) : Nat :=
  if n ≤ capacity then capacity else max (t.newCapacity capacity) n

theorem le_reserved {capacity : Nat} : n ≤ reserved t capacity n := by
  unfold reserved
  split
  · assumption
  · exact Nat.le_max_right _ _

theorem reserve_spec (keeps : Keeps w b o list m) (n : Nat) :
    Spec (reserve b n) m
      (fun _ m' => ∃ p, Keeps w b { o with buffer := p, capacity := reserved t o.capacity n } list m')
      fun m' => w.MayThrow ∧ Keeps w b o list m' := by
  unfold reserve reserved
  refine Spec.after keeps.object ?_
  refine Spec.after (assert_returned (decide_eq_true keeps.least)) ?_
  split
  · exact ⟨o.buffer, keeps⟩
  · rename_i more
    have larger : o.capacity < n := Nat.not_le.mp more
    refine Spec.after (newCapacityImpl_spec keeps larger) ?_
    have grows : o.capacity < max (t.newCapacity o.capacity) n := by omega
    refine (growStorage_spec keeps grows).bind ?_ fun _ => id
    rintro _ m₁ ⟨p, keeps₁⟩
    refine Spec.after keeps₁.object ?_
    rw [spec_assert]
    exact ⟨decide_eq_true (Nat.le_max_right _ _), p, keeps₁⟩

theorem pushBack_spec (keeps : Keeps w b o list m) (x : t.T) :
    Spec (pushBack b x) m (fun _ m' => ∃ o', Keeps w b o' (list ++ [x]) m') (Leaves w b) := by
  unfold pushBack
  refine Spec.after keeps.object ?_
  have size := keeps.size
  have fits := keeps.fits
  split
  · rename_i notFull
    refine (uncheckedPushBack_spec keeps (by omega) x).mono (fun _ m₁ keeps₁ => ⟨_, keeps₁⟩)
      fun m' thrown => ⟨thrown.1, o, list, thrown.2⟩
  · refine (reserve_spec keeps (o.size + 1)).bind ?_ fun m' thrown => ⟨thrown.1, o, list, thrown.2⟩
    rintro _ m₁ ⟨p, keeps₁⟩
    have enough : o.size + 1 ≤ reserved t o.capacity (o.size + 1) := le_reserved
    refine (uncheckedPushBack_spec keeps₁ ?_ x).mono (fun _ m₂ keeps₂ => ⟨_, keeps₂⟩)
      fun m' thrown => ⟨thrown.1, _, list, thrown.2⟩
    change list.length < reserved t o.capacity (o.size + 1)
    omega

theorem pushBackDefault_spec (keeps : Keeps w b o list m) :
    Spec (pushBackDefault b) m (fun _ m' => ∃ o', Keeps w b o' (list ++ [defaultElement t]) m')
      (Leaves w b) := by
  unfold pushBackDefault
  refine Spec.after keeps.object ?_
  have size := keeps.size
  have fits := keeps.fits
  split
  · rename_i notFull
    refine (uncheckedPushBackDefault_spec keeps (by omega)).mono (fun _ m₁ keeps₁ => ⟨_, keeps₁⟩)
      fun m' thrown => ⟨thrown.1, o, list, thrown.2⟩
  · refine (reserve_spec keeps (o.size + 1)).bind ?_ fun m' thrown => ⟨thrown.1, o, list, thrown.2⟩
    rintro _ m₁ ⟨p, keeps₁⟩
    have enough : o.size + 1 ≤ reserved t o.capacity (o.size + 1) := le_reserved
    refine (uncheckedPushBackDefault_spec keeps₁ ?_).mono (fun _ m₂ keeps₂ => ⟨_, keeps₂⟩)
      fun m' thrown => ⟨thrown.1, _, list, thrown.2⟩
    change list.length < reserved t o.capacity (o.size + 1)
    omega

theorem pushBackRange_spec (keeps : Keeps w b o list m) (pointers : Bool) (values : List t.T) :
    Spec (pushBackRange b pointers values) m
      (fun _ m' => ∃ o', Keeps w b o' (list ++ values) m') (Leaves w b) := by
  unfold pushBackRange
  refine Spec.after keeps.object ?_
  have size := keeps.size
  have grown : Spec (if o.capacity < o.size + values.length then reserve b (o.size + values.length)
      else pure ()) m
      (fun _ m' => ∃ o', Keeps w b o' list m' ∧ o.size + values.length ≤ o'.capacity)
      (Leaves w b) := by
    split
    · refine (reserve_spec keeps (o.size + values.length)).mono ?_
        fun m' thrown => ⟨thrown.1, o, list, thrown.2⟩
      rintro _ m₁ ⟨p, keeps₁⟩
      exact ⟨_, keeps₁, le_reserved⟩
    · rename_i enough
      exact ⟨o, keeps, Nat.not_lt.mp enough⟩
  refine grown.bind ?_ fun _ => id
  rintro _ m₁ ⟨o', keeps₁, enough⟩
  rw [size] at enough
  exact (uncheckedPushBackRange_spec keeps₁ enough pointers).mono (fun _ m₂ keeps₂ => ⟨_, keeps₂⟩)
    fun m' thrown => ⟨thrown.1, o', list, thrown.2⟩

/-- The buffer on the heap moves to a block of the right size, or back to its own storage. -/
theorem shrinkToFit_spec (keeps : Keeps w b o list m) :
    Spec (shrinkToFit b) m (fun _ m' => ∃ o', Keeps w b o' list m')
      fun m' => w.MayThrow ∧ Keeps w b o list m' := by
  unfold shrinkToFit
  refine Spec.after keeps.object ?_
  split
  · exact ⟨o, keeps⟩
  · rename_i shrinks
    obtain ⟨l, storage, keeping⟩ := keeps
    have housed := keeping.housed
    have size := housed.size
    have outside : storage ≠ .internal b := by
      intro inside
      exact shrinks (by rw [housed.onStack.mpr inside]; rfl)
    have empty := keeping.accounted.unused housed outside
    refine (reserveImpl_spec keeping.shows housed (Nat.le_of_eq size.symm)
      (.inr ⟨outside, empty⟩)).bind ?_ fun m' thrown =>
        ⟨keeping.mayThrow thrown.1, keeping.shown thrown.2⟩
    rintro _ m₁ ⟨other, free, apart, nothing, shows₁⟩
    have object₁ : (l.moved b o storage other o.size list).objects b =
        some { o with buffer := some other, capacity := o.size } := Function.update_self _ _ _
    refine Spec.after (object_eq shows₁ object₁) ?_
    refine (setObject_spec shows₁ _).bind (fun _ m₂ shows₂ => ?_) fun _ => id
    -- the capacity of a block stays, that of the internal storage is put right
    obtain ⟨free', granted⟩ := free.settle
    have layout : (l.moved b o storage other o.size list).setObject b
        (some { o with buffer := some other, capacity := max t.N o.size }) =
          l.moved b o storage other (max t.N o.size) list := by
      unfold Layout.moved
      rw [granted]
      simp only [Layout.setObject, Function.update_idem]
    rw [layout] at shows₂
    have keeps₂ := keeping.moved free' apart nothing
      (Nat.le_trans (Nat.le_of_eq size.symm) (Nat.le_max_right _ _)) (Nat.le_max_left _ _) shows₂
    have exactly_ : ((decide (max t.N o.size ≤ t.N)) || decide (o.size = max t.N o.size)) = true := by
      by_cases small : o.size ≤ t.N
      · simp [small]
      · simp [Nat.max_eq_right (Nat.le_of_not_le small)]
    have counted : (!(decide (max t.N o.size ≤ t.N)) || decide (o.size ≤ max t.N o.size)) = true := by
      simp
    refine Spec.after (assert_returned exactly_) ?_
    rw [spec_assert]
    exact ⟨counted, _, keeps₂⟩

/-! ### Popping -/

theorem popBack_spec (keeps : Keeps w b o list m) (some_ : list ≠ [])
    {throws : BufferMemory t → Prop} :
    Spec (popBack b) m
      (fun _ m' => Keeps w b { o with size := o.size - 1 } list.dropLast m') throws := by
  unfold popBack
  refine Spec.after keeps.object ?_
  obtain ⟨l, storage, keeping⟩ := keeps
  have housed := keeping.housed
  have size := housed.size
  have positive : 0 < list.length := List.length_pos_iff.mpr some_
  refine Spec.after (assert_returned (decide_eq_true (by omega))) ?_
  have last : l.live storage = list.dropLast ++ [list.getLast some_] := by
    rw [List.dropLast_append_getLast, housed.live]
  have destroyed : Spec (destroyElement o.buffer (o.size - 1)) m
      (fun _ m' => Shows m' (l.setLive storage list.dropLast)) throws := by
    rw [housed.buffer]
    refine destroyElement_spec keeping.shows last ?_
    rw [List.length_dropLast, size]
  refine destroyed.bind (fun _ m₁ shows₁ => ?_) fun _ => id
  have fits := housed.fits
  refine setSize_spec keeping shows₁ ?_ ?_
  · rw [List.length_dropLast]
    omega
  · rw [List.length_dropLast, size]

theorem popBackN_spec (keeps : Keeps w b o list m) (enough : n ≤ list.length)
    {throws : BufferMemory t → Prop} :
    Spec (popBackN b n) m
      (fun _ m' => Keeps w b { o with size := o.size - n } (list.take (list.length - n)) m')
      throws := by
  unfold popBackN
  refine Spec.after keeps.object ?_
  have size := keeps.size
  have fits := keeps.fits
  refine Spec.after (assert_returned (decide_eq_true (by omega))) ?_
  split
  · rename_i none_
    subst none_
    have all : list.take (list.length - 0) = list := by rw [Nat.sub_zero, List.take_length]
    rw [all]
    exact keeps
  · rename_i some_
    obtain ⟨l, storage, keeping⟩ := keeps
    refine (destroyBackN_spec keeping.shows keeping.housed (Nat.pos_of_ne_zero some_) enough).bind
      (fun _ m₁ shows₁ => ?_) fun _ => id
    refine setSize_spec keeping shows₁ ?_ ?_
    · rw [List.length_take]
      omega
    · rw [List.length_take, size]
      omega

theorem clear_spec (keeps : Keeps w b o list m) {throws : BufferMemory t → Prop} :
    Spec (clear b) m (fun _ m' => Keeps w b { o with size := 0 } [] m') throws := by
  unfold clear
  refine Spec.after keeps.object ?_
  rw [keeps.size]
  refine (popBackN_spec keeps (Nat.le_refl _)).mono (fun _ m₁ keeps₁ => ?_) fun _ => id
  rw [keeps.size, Nat.sub_self, List.take_zero] at keeps₁
  exact keeps₁

/-! ### Overwriting -/

theorem assignImpl_keeps (keeps : Keeps w b o list m) (within : start + values.length ≤ list.length) :
    Spec (assignImpl o.buffer start values) m
      (fun _ m' => Keeps w b o (overwrite list start values) m') (Leaves w b) := by
  obtain ⟨l, storage, keeping⟩ := keeps
  have live := keeping.housed.live
  rw [keeping.housed.buffer]
  refine (assignImpl_spec keeping.shows (by rw [live]; exact within)).mono
    (fun _ m₁ shows₁ => ?_) fun m' left => ?_
  · rw [live] at shows₁
    exact keeping.rewrite (overwrite_length within) shows₁
  · obtain ⟨may, list', _, keeps'⟩ := keeping.scrambled left
    exact ⟨may, o, list', keeps'⟩

theorem assignEach_keeps (keeps : Keeps w b o list m) (within : start + values.length ≤ list.length) :
    Spec (assignEach o.buffer start values) m
      (fun _ m' => Keeps w b o (overwrite list start values) m') (Leaves w b) := by
  obtain ⟨l, storage, keeping⟩ := keeps
  have live := keeping.housed.live
  rw [keeping.housed.buffer]
  refine (assignEach_spec keeping.shows (by rw [live]; exact within)).mono
    (fun _ m₁ shows₁ => ?_) fun m' left => ?_
  · rw [live] at shows₁
    exact keeping.rewrite (overwrite_length within) shows₁
  · obtain ⟨may, list', _, keeps'⟩ := keeping.scrambled left
    exact ⟨may, o, list', keeps'⟩

theorem stdCopy_keeps (keeps : Keeps w b o list m) {first dest : Nat}
    (source : first + n ≤ list.length) (target : dest + n ≤ list.length) :
    Spec (stdCopy o.buffer first n dest) m
      (fun _ m' => Keeps w b o (copied t list first n dest) m') (Leaves w b) := by
  obtain ⟨l, storage, keeping⟩ := keeps
  have live := keeping.housed.live
  rw [keeping.housed.buffer]
  refine (stdCopy_spec keeping.shows (by rw [live]; exact source)
    (by rw [live]; exact target)).mono (fun _ m₁ shows₁ => ?_) fun m' left => ?_
  · rw [live] at shows₁
    exact keeping.rewrite (copied_length target) shows₁
  · obtain ⟨may, list', _, keeps'⟩ := keeping.scrambled left
    exact ⟨may, o, list', keeps'⟩

end AutoBuffer

end Signals2
