/-
Buffers that come and go: construction, destruction and the local buffer of a function.
-/

import Signals2.AutoBufferOperations

namespace Signals2

open FalliblePrograms FalliblePrograms.Program ForwardCopies AutoBuffer

variable {t : BufferTemplate}

namespace Others

variable {w : Others t} {b r : BufferName} {o q : AutoBuffer} {list list' : List t.T}

/-- With a buffer among the others. -/
def put (w : Others t) (b : BufferName) (o : AutoBuffer) (list : List t.T) : Others t :=
  { w with
    objects := Function.update w.objects b (some o)
    lists := Function.update w.lists b (some list) }

/-- With a buffer no longer among the others. -/
def drop (w : Others t) (b : BufferName) : Others t :=
  { w with
    objects := Function.update w.objects b none
    lists := Function.update w.lists b none }

@[simp] theorem put_object : (w.put b o list).objects b = some o := Function.update_self _ _ _

@[simp] theorem put_entry : (w.put b o list).lists b = some list := Function.update_self _ _ _

theorem put_object_other (other : r ≠ b) : (w.put b o list).objects r = w.objects r :=
  Function.update_of_ne other _ _

theorem put_entry_other (other : r ≠ b) : (w.put b o list).lists r = w.lists r :=
  Function.update_of_ne other _ _

@[simp] theorem drop_object : (w.drop b).objects b = none := Function.update_self _ _ _

theorem drop_object_other (other : r ≠ b) : (w.drop b).objects r = w.objects r :=
  Function.update_of_ne other _ _

theorem put_comm (apart : b ≠ r) : (w.put b o list).put r q list' = (w.put r q list').put b o list := by
  simp only [put, Function.update_comm apart]

theorem put_same (object : w.objects b = some o) (entry : w.lists b = some list) :
    w.put b o list = w := by
  have objects : Function.update w.objects b (some o) = w.objects := by
    rw [← object, Function.update_eq_self]
  have lists : Function.update w.lists b (some list) = w.lists := by
    rw [← entry, Function.update_eq_self]
  simp only [put, objects, lists]

theorem drop_absent (object : w.objects b = none) (entry : w.lists b = none) :
    w.drop b = w := by
  have objects : Function.update w.objects b none = w.objects := by
    rw [← object, Function.update_eq_self]
  have lists : Function.update w.lists b none = w.lists := by
    rw [← entry, Function.update_eq_self]
  simp only [drop, objects, lists]

end Others

/-- The memory holds just these buffers. -/
def Stores (w : Others t) (m : BufferMemory t) : Prop :=
  ∃ l, Shows m l ∧ l.Accounted w.lists ∧ l.objects = w.objects ∧ l.throws = w.throws

variable {w : Others t} {b r : BufferName} {o q : AutoBuffer} {list list' values : List t.T}
variable {l : Layout t} {storage other : Storage} {m m' : BufferMemory t} {n c : Nat}

theorem keeps_iff_stores : Keeps w b o list m ↔ Stores (w.put b o list) m := by
  constructor
  · rintro ⟨l, storage, keeping⟩
    refine ⟨l, keeping.shows, keeping.accounted, ?_, keeping.throws⟩
    funext name
    by_cases same : name = b
    · subst same
      rw [keeping.housed.object, Others.put_object]
    · rw [keeping.others name same, Others.put_object_other same]
  · rintro ⟨l, shows, accounted, objects, throws⟩
    have there : l.objects b = some o := by
      rw [objects, Others.put_object]
    obtain ⟨storage, list', entry, housed⟩ := accounted.housed there
    rw [Others.put_entry, Option.some.injEq] at entry
    subst entry
    refine ⟨l, storage,
      { shows := shows
        accounted := accounted
        housed := housed
        others := ?_
        throws := throws }⟩
    intro name different
    rw [objects, Others.put_object_other different]

theorem Stores.keeps (stores : Stores w m) (entry : w.lists b = some list) :
    ∃ o, w.objects b = some o ∧ Keeps w b o list m := by
  obtain ⟨l, shows, accounted, objects, throws⟩ := stores
  obtain ⟨o, storage, housed⟩ := accounted.houses b list entry
  have same : Function.update w.lists b (some list) = w.lists := by
    rw [← entry, Function.update_eq_self]
  refine ⟨o, ?_, l, storage,
    { shows := shows
      accounted := by
        rw [same]
        exact accounted
      housed := housed
      others := fun r _ => congrFun objects r
      throws := throws }⟩
  rw [← objects]
  exact housed.object

/-- Either of two buffers may be looked at. -/
theorem Keeps.turn (apart : b ≠ r) (keeps : Keeps (w.put r q list') b o list m) :
    Keeps (w.put b o list) r q list' m := by
  rw [keeps_iff_stores] at keeps ⊢
  rwa [Others.put_comm apart]

/-- What the buffer itself was before does not matter. -/
theorem Keeps.of_drop (keeps : Keeps (w.drop b) b o list m) : Keeps w b o list m := by
  obtain ⟨l, storage, keeping⟩ := keeps
  have accounted := keeping.accounted
  rw [Others.drop, Function.update_idem] at accounted
  refine ⟨l, storage,
    { shows := keeping.shows
      accounted := accounted
      housed := keeping.housed
      others := ?_
      throws := keeping.throws }⟩
  intro r different
  rw [keeping.others r different, Others.drop_object_other different]

theorem Stores.absent (stores : Stores w m) (entry : w.lists b = none) : w.objects b = none := by
  obtain ⟨l, shows, accounted, objects, throws⟩ := stores
  rw [← objects]
  exact accounted.gone b entry

namespace AutoBuffer

/-! ### Destruction -/

theorem destruct_spec (keeps : Keeps w b o list m) {throws : BufferMemory t → Prop} :
    Spec (destruct b) m (fun _ m' => Stores (w.drop b) m') throws := by
  obtain ⟨l, storage, keeping⟩ := keeps
  have housed := keeping.housed
  unfold destruct
  refine (autoBufferDestroy_spec keeping.shows housed).bind (fun _ m₁ shows₁ => ?_) fun _ => id
  have empty : ((l.setLive storage []).release storage).live (.internal b) = [] := by
    rw [Layout.release_live]
    by_cases inside : storage = .internal b
    · subst inside
      exact Layout.setLive_live
    · rw [Layout.setLive_live_other (Ne.symm inside)]
      exact keeping.accounted.unused housed inside
  refine (dropObject_spec shows₁ empty).mono (fun _ m₂ shows₂ => ?_) fun _ => id
  have accounted := keeping.accounted.remove housed
  rw [Function.update_idem] at accounted
  refine ⟨_, shows₂, accounted, ?_, ?_⟩
  · funext name
    by_cases same : name = b
    · subst same
      simp [Layout.setObject]
    · rw [Others.drop_object_other same, ← keeping.others name same]
      simp [Layout.setObject, same]
  · simpa [Layout.setObject, Layout.setLive, Others.drop] using keeping.throws

/-- A pointer to nothing, and nothing kept; the other buffers are in order. -/
structure Emptied (w : Others t) (b : BufferName) (o : AutoBuffer) (m : BufferMemory t) : Prop where
  buffer : o.buffer = none
  others : ∃ l : Layout t, Shows m (l.setObject b (some o)) ∧ l.Accounted (Function.update w.lists b none) ∧
    (∀ r, r ≠ b → l.objects r = w.objects r) ∧ l.throws = w.throws

/-- The other buffers are valid. -/
theorem Emptied.assertValid_other (emptied : Emptied w b o m) (different : r ≠ b)
    (entry : w.lists r = some list) : assertValid r m = .returned () m := by
  obtain ⟨l, shows, accounted, others, same⟩ := emptied.others
  have kept : Function.update w.lists b none r = some list := by
    rw [Function.update_of_ne different]
    exact entry
  obtain ⟨q, storage, housed⟩ := accounted.houses r list kept
  refine assertValid_eq shows ?_ housed.isValid
  rw [← housed.object]
  exact Function.update_of_ne different _ _

theorem destruct_emptied (emptied : Emptied w b o m) {throws : BufferMemory t → Prop} :
    Spec (destruct b) m (fun _ m' => Stores (w.drop b) m') throws := by
  obtain ⟨l, shows, accounted, others, same⟩ := emptied.others
  have gone : l.objects b = none := accounted.gone b (Function.update_self _ _ _)
  have null : o.isNull t = true := by simp [isNull, emptied.buffer]
  have valid : o.isValid t b = true := by rw [isValid, if_pos null]
  have there : (l.setObject b (some o)).objects b = some o := Function.update_self _ _ _
  unfold destruct autoBufferDestroy
  rw [spec_bind]
  refine Spec.after (object_eq shows there) ?_
  refine Spec.after (assert_returned valid) ?_
  rw [if_pos null, spec_pure]
  have empty : (l.setObject b (some o)).live (.internal b) = [] := accounted.vacant gone
  refine (dropObject_spec shows empty).mono (fun _ m₁ shows₁ => ?_) fun _ => id
  have layout : (l.setObject b (some o)).setObject b none = l := by
    have objects : Function.update l.objects b none = l.objects := by
      rw [← gone, Function.update_eq_self]
    simp only [Layout.setObject, Function.update_idem, objects]
  rw [layout] at shows₁
  refine ⟨l, shows₁, accounted, ?_, same⟩
  funext name
  by_cases mine : name = b
  · subst mine
    rw [Others.drop_object, gone]
  · rw [Others.drop_object_other mine, others name mine]

/-! ### Construction -/

/-- A storage has been found for a buffer that was not there. -/
structure Constructing (w : Others t) (b : BufferName) (c : Nat) (l : Layout t)
    (storage : Storage) : Prop where
  absent : w.lists b = none
  accounted : l.Accounted w.lists
  objects : l.objects = w.objects
  throws : l.throws = w.throws
  free : l.Free b c storage
  empty : l.live storage = []

theorem Constructing.gone (constructing : Constructing w b c l storage) : l.objects b = none :=
  constructing.accounted.gone b constructing.absent

/-- The object with that storage, and the elements in it. -/
def constructed (l : Layout t) (b : BufferName) (c : Nat) (storage : Storage) (size : Nat)
    (values : List t.T) : Layout t :=
  ((l.grant storage c).setLive storage values).setObject b
    (some { capacity := c, buffer := some storage, size := size })

theorem construct_spec (stores : Stores w m) (absent : w.lists b = none) (c : Nat) :
    Spec (construct b c) m
      (fun _ m' => ∃ l storage, Constructing w b c l storage ∧
        Shows m' (constructed l b c storage 0 []))
      fun m' => w.MayThrow ∧ Stores w m' := by
  obtain ⟨l, shows, accounted, objects, throws⟩ := stores
  unfold construct
  refine (allocate_spec shows b c).bind ?_ fun m' thrown => ?_
  · rintro p m₁ ⟨storage, rfl, free, shows₁⟩
    have empty : l.live storage = [] := by
      cases storage with
      | internal b' =>
          rw [free.1]
          exact shows.absent (accounted.gone b absent)
      | block k => exact shows.unallocated free.2
    refine (setObject_spec shows₁ _).mono (fun _ m₂ shows₂ => ?_) fun _ => id
    refine ⟨l, storage,
      { absent := absent
        accounted := accounted
        objects := objects
        throws := throws
        free := free
        empty := empty }, ?_⟩
    have same : (l.grant storage c).setLive storage [] = l.grant storage c := by
      apply Layout.setLive_same
      rw [Layout.grant_live, empty]
    rw [constructed, same]
    exact shows₂
  · refine ⟨?_, l, thrown.2, accounted, objects, throws⟩
    rw [Others.MayThrow, ← throws]
    exact thrown.1

/-- The object is complete when its size counts the elements. -/
theorem Constructing.complete (constructing : Constructing w b c l storage)
    (fits : values.length ≤ max t.N c)
    (shows : Shows m (constructed l b (max t.N c) storage values.length values)) :
    Keeps w b { capacity := max t.N c, buffer := some storage, size := values.length } values m := by
  have free := constructing.free.settle.1
  have housed : (constructed l b (max t.N c) storage values.length values).Housed b
      { capacity := max t.N c, buffer := some storage, size := values.length } storage values :=
    { object := Function.update_self _ _ _
      buffer := rfl
      size := rfl
      live := Layout.setLive_live
      fits := fits
      least := Nat.le_max_left _ _
      holds := by
        have held := free.held
        cases storage <;> exact held }
  refine ⟨_, storage,
    { shows := shows
      accounted := constructing.accounted.add constructing.absent free constructing.empty housed
      housed := housed
      others := ?_
      throws := ?_ }⟩
  · intro r different
    rw [← constructing.objects]
    simp [constructed, Layout.setObject, different]
  · rw [← constructing.throws]
    simp [constructed, Layout.setObject, Layout.setLive]

theorem defaultConstruct_spec (stores : Stores w m) (absent : w.lists b = none)
    {throws : BufferMemory t → Prop} :
    Spec (defaultConstruct b) m (fun _ m' => ∃ o, Keeps w b o [] m') throws := by
  obtain ⟨l, shows, accounted, objects, same⟩ := stores
  have empty : l.live (.internal b) = [] := shows.absent (accounted.gone b absent)
  have constructing : Constructing w b t.N l (.internal b) :=
    { absent := absent
      accounted := accounted
      objects := objects
      throws := same
      free := ⟨rfl, Nat.le_refl _⟩
      empty := empty }
  unfold defaultConstruct
  refine (setObject_spec shows _).bind (fun _ m₁ shows₁ => ?_) fun _ => id
  have layout : (l.grant (.internal b) t.N).setLive (.internal b) [] = l :=
    Layout.setLive_same empty
  have shown : Shows m₁ (constructed l b (max t.N t.N) (.internal b) 0 []) := by
    rw [constructed, Nat.max_self, layout]
    exact shows₁
  have keeps := constructing.complete (Nat.zero_le _) shown
  unfold Spec
  rw [keeps.assertValid]
  exact ⟨_, keeps⟩

theorem capacityConstruct_spec (stores : Stores w m) (absent : w.lists b = none) (c : Nat) :
    Spec (capacityConstruct b c) m
      (fun _ m' => ∃ p, Keeps w b { capacity := max c t.N, buffer := p, size := 0 } [] m')
      fun m' => w.MayThrow ∧ Stores w m' := by
  unfold capacityConstruct
  refine (construct_spec stores absent (max c t.N)).bind ?_ fun _ => id
  rintro _ m₁ ⟨l, storage, constructing, shows⟩
  have settled : max t.N (max c t.N) = max c t.N := by omega
  have shown : Shows m₁ (constructed l b (max t.N (max c t.N)) storage 0 []) := by
    rw [settled]
    exact shows
  have keeps := constructing.complete (Nat.zero_le _) shown
  unfold Spec
  rw [keeps.assertValid]
  rw [settled] at keeps
  exact ⟨some storage, keeps⟩

/-- Elements are constructed in the new storage. -/
theorem constructElements_spec (constructing : Constructing w b c l storage)
    (shows : Shows m (constructed l b c storage 0 [])) (fits : values.length ≤ c)
    (pointers : Bool) :
    Spec (constructElements b pointers values) m
      (fun _ m' => Shows m' (constructed l b c storage 0 values)) fun _ => w.MayThrow := by
  have there : (constructed l b c storage 0 []).objects b =
      some { capacity := c, buffer := some storage, size := 0 } := Function.update_self _ _ _
  have live : (constructed l b c storage 0 []).live storage = [] := Layout.setLive_live
  have room : c ≤ (constructed l b c storage 0 []).room storage := by
    have held : (constructed l b c storage 0 []).Holds b c storage := by
      have held := constructing.free.held
      cases storage <;> exact held
    exact held.room (by rw [there]; rfl)
  have next : 0 = ((constructed l b c storage 0 []).live storage).length := by
    rw [live, List.length_nil]
  have copied : Spec (copyImpl pointers (some storage) 0 values) m
      (fun _ m' => Shows m' ((constructed l b c storage 0 []).setLive storage ([] ++ values)))
      fun m' => w.MayThrow ∧ Shows m' (constructed l b c storage 0 []) := by
    have enough : 0 + values.length ≤ (constructed l b c storage 0 []).room storage := by omega
    have spec := copyImpl_spec shows pointers next enough
    rw [live] at spec
    refine spec.mono (fun _ _ => id) fun m₁ thrown => ⟨?_, thrown.2.2⟩
    have may := thrown.2.1
    rw [Others.MayThrow, ← constructing.throws]
    simpa [Layout.MayThrow, constructed, Layout.setObject, Layout.setLive] using may
  have layout : (constructed l b c storage 0 []).setLive storage ([] ++ values) =
      constructed l b c storage 0 values := by
    rw [List.nil_append, constructed, constructed, Layout.setObject_setLive,
      Layout.setLive_setLive]
  unfold constructElements
  refine Spec.after (object_eq shows there) ?_
  rw [layout] at copied
  refine copied.onThrow ?_
  -- an exception ends the object
  rintro m₁ ⟨may, shows₁⟩
  have empty : (constructed l b c storage 0 []).live (.internal b) = [] := by
    by_cases inside : storage = .internal b
    · subst inside
      exact live
    · rw [constructed, Layout.setObject_live, Layout.setLive_live_other (Ne.symm inside),
        Layout.grant_live]
      exact constructing.accounted.vacant constructing.gone
  exact (dropObject_spec shows₁ empty).mono (fun _ _ _ => may) fun _ => id

/-- The size is set last, and the capacity if the internal storage has more. -/
theorem Constructing.settled (constructing : Constructing w b c l storage)
    (fits : values.length ≤ max t.N c)
    (shows : Shows m ((constructed l b c storage 0 values).setObject b
      (some { capacity := max t.N c, buffer := some storage, size := values.length }))) :
    Keeps w b { capacity := max t.N c, buffer := some storage, size := values.length } values m := by
  have layout : (constructed l b c storage 0 values).setObject b
      (some { capacity := max t.N c, buffer := some storage, size := values.length }) =
        constructed l b (max t.N c) storage values.length values := by
    rw [constructed, constructed, constructing.free.settle.2]
    simp only [Layout.setObject, Function.update_idem]
  rw [layout] at shows
  exact constructing.complete fits shows

theorem constructed_object (size : Nat) :
    (constructed l b c storage size values).objects b =
      some { capacity := c, buffer := some storage, size := size } :=
  Function.update_self _ _ _

/-- The constructors that copy elements, with at least the capacity of the internal
storage. -/
theorem copyNew_spec (constructing : Constructing w b (max n t.N) l storage)
    (shows : Shows m (constructed l b (max n t.N) storage 0 [])) (size : n = values.length)
    (pointers : Bool) :
    Spec (do
        constructElements b pointers values
        setSize b n
        assertValid b) m
      (fun _ m' => ∃ o, Keeps w b o values m') fun _ => w.MayThrow := by
  subst size
  have fits : values.length ≤ max values.length t.N := Nat.le_max_left _ _
  refine (constructElements_spec constructing shows fits pointers).bind
    (fun _ m₁ shows₁ => ?_) fun _ => id
  unfold setSize
  rw [spec_bind]
  refine Spec.after (object_eq shows₁ (constructed_object 0)) ?_
  refine (setObject_spec shows₁ _).mono (fun _ m₂ shows₂ => ?_) fun _ => id
  have settled : max t.N (max values.length t.N) = max values.length t.N := by omega
  have enough : values.length ≤ max t.N (max values.length t.N) := by omega
  have keeps := constructing.settled enough (by rw [settled]; exact shows₂)
  exact keeps.assertValid_spec.mono (fun _ m₃ keeps₃ => ⟨_, keeps₃⟩) fun _ => id

theorem fillConstruct_spec (stores : Stores w m) (absent : w.lists b = none) (n : Nat) (v : t.T) :
    Spec (fillConstruct b n v) m (fun _ m' => ∃ o, Keeps w b o (List.replicate n v) m')
      fun _ => w.MayThrow := by
  unfold fillConstruct
  refine (construct_spec stores absent (max n t.N)).bind ?_ fun m' thrown => thrown.1
  rintro _ m₁ ⟨l, storage, constructing, shows⟩
  exact copyNew_spec constructing shows List.length_replicate.symm false

theorem copyConstruct_spec (stores : Stores w m) (absent : w.lists b = none)
    (source : w.lists r = some list) :
    Spec (copyConstruct b r) m (fun _ m' => ∃ o, Keeps w b o list m') fun _ => w.MayThrow := by
  obtain ⟨q, object, keeps⟩ := stores.keeps source
  unfold copyConstruct
  refine Spec.after keeps.object ?_
  refine (construct_spec stores absent (max q.size t.N)).bind ?_ fun m' thrown => thrown.1
  rintro _ m₁ ⟨l, storage, constructing, shows⟩
  -- the elements of the other buffer are still where they were
  have there : l.objects r = some q := by
    rw [constructing.objects]
    exact object
  obtain ⟨source', list', entry, housed⟩ := constructing.accounted.housed there
  rw [source, Option.some.injEq] at entry
  subst entry
  have apart : source' ≠ storage := by
    rintro rfl
    have same := constructing.accounted.unowned constructing.free housed.owns
    subst same
    rw [constructing.absent] at source
    cases source
  have live : (constructed l b (max q.size t.N) storage 0 []).live source' = list := by
    rw [constructed, Layout.setObject_live, Layout.setLive_live_other apart, Layout.grant_live]
    exact housed.live
  rw [housed.buffer]
  refine Spec.after (readRange_all shows live housed.size) ?_
  exact copyNew_spec constructing shows housed.size true

theorem rangeConstruct_spec (stores : Stores w m) (absent : w.lists b = none) (pointers : Bool)
    (values : List t.T) :
    Spec (rangeConstruct b pointers values) m (fun _ m' => ∃ o, Keeps w b o values m')
      fun _ => w.MayThrow := by
  unfold rangeConstruct
  refine (construct_spec stores absent values.length).bind ?_ fun m' thrown => thrown.1
  rintro _ m₁ ⟨l, storage, constructing, shows⟩
  refine (constructElements_spec constructing shows (Nat.le_refl _) pointers).bind
    (fun _ m₂ shows₂ => ?_) fun _ => id
  refine Spec.after (object_eq shows₂ (constructed_object 0)) ?_
  refine (setObject_spec shows₂ _).bind (fun _ m₃ shows₃ => ?_) fun _ => id
  have capacity : (if values.length < t.N then t.N else values.length) = max t.N values.length := by
    split <;> omega
  rw [capacity] at shows₃
  have keeps := constructing.settled (Nat.le_max_right _ _) shows₃
  exact keeps.assertValid_spec.mono (fun _ m₄ keeps₄ => ⟨_, keeps₄⟩) fun _ => id

/-! ### Local buffers -/

/-- However the body ends, the local buffer is destroyed. -/
theorem withTemporary_spec {Value : Type} {make : Buffered t Unit} {body : Buffered t Value}
    {made left throws : BufferMemory t → Prop} {ended returns : Value → BufferMemory t → Prop}
    (makes : Spec make m (fun _ => made) throws)
    (runs : ∀ m', made m' → Spec body m' ended left)
    (returning : ∀ value m', ended value m' →
      Spec (destruct .temporary) m' (fun _ => returns value) throws)
    (throwing : ∀ m', left m' → Spec (destruct .temporary) m' (fun _ => throws) throws) :
    Spec (withTemporary make body) m returns throws := by
  unfold withTemporary
  refine makes.bind (fun _ m₁ made₁ => ?_) fun _ => id
  refine ((runs m₁ made₁).onThrow throwing).bind (fun value m₂ ended₂ => ?_) fun _ => id
  exact (returning value m₂ ended₂).bind (fun _ _ done => done) fun _ => id

end AutoBuffer

end Signals2
