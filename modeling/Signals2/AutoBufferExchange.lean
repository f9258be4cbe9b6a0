/-
What happens between two buffers: assignment and swapping.
-/

import Signals2.AutoBufferLifetimes

namespace Signals2

open FalliblePrograms FalliblePrograms.Program ForwardCopies AutoBuffer

variable {t : BufferTemplate} {w : Others t} {b r : BufferName} {o q : AutoBuffer}
variable {list other values : List t.T} {l : Layout t} {storage : Storage}
variable {m m' : BufferMemory t} {n c : Nat}

namespace AutoBuffer

/-! ### Assignment -/

/-- The old storage has been given back before the new one is asked for. -/
theorem reassign_spec (keeps : Keeps w b o list m) (more : o.capacity < values.length) :
    Spec (do
        autoBufferDestroy b
        setObject b { o with buffer := none }
        let newBuffer ← allocate b values.length
        onThrow (copyImpl true newBuffer 0 values) (deallocate newBuffer values.length)
        setObject b { capacity := values.length, buffer := newBuffer, size := values.length }) m
      (fun _ m' => ∃ o', Keeps w b o' values m')
      fun m' => w.MayThrow ∧ Emptied w b { o with buffer := none } m' := by
  have large : t.N < values.length := Nat.lt_of_le_of_lt keeps.least more
  obtain ⟨l, storage, keeping⟩ := keeps
  have housed := keeping.housed
  refine (autoBufferDestroy_spec keeping.shows housed).bind (fun _ m₁ shows₁ => ?_) fun _ => id
  refine (setObject_spec shows₁ _).bind (fun _ m₂ shows₂ => ?_) fun _ => id
  have accounted := keeping.accounted.remove housed
  rw [Function.update_idem] at accounted
  -- the layout without the object
  let gone := ((l.setLive storage []).release storage).setObject b none
  have nulled : ((l.setLive storage []).release storage).setObject b
      (some { o with buffer := none }) = gone.setObject b (some { o with buffer := none }) := by
    simp only [gone, Layout.setObject, Function.update_idem]
  rw [nulled] at shows₂
  have objects : gone.objects = (w.drop b).objects := by
    funext name
    by_cases same : name = b
    · subst same
      simp [gone, Layout.setObject]
    · rw [Others.drop_object_other same, ← keeping.others name same]
      simp [gone, Layout.setObject, same]
  have throws : gone.throws = w.throws := by
    rw [← keeping.throws]
    simp [gone, Layout.setObject, Layout.setLive]
  have emptied : ∀ m', (gone.setObject b (some { o with buffer := none })).MayThrow ∧
      Shows m' (gone.setObject b (some { o with buffer := none })) →
        w.MayThrow ∧ Emptied w b { o with buffer := none } m' := by
    rintro m' ⟨may, shows'⟩
    refine ⟨?_, rfl, gone, shows', accounted, ?_, throws⟩
    · rw [Others.MayThrow, ← throws]
      exact may
    · intro r different
      rw [objects, Others.drop_object_other different]
  refine (allocate_spec shows₂ b values.length).bind ?_ emptied
  rintro p m₃ ⟨storage', rfl, free, shows₃⟩
  have empty : gone.live storage' = [] := by
    cases storage' with
    | internal b' => exact absurd free.2 (Nat.not_le.mpr large)
    | block k => exact shows₂.unallocated free.2
  have constructing : Constructing (w.drop b) b values.length gone storage' :=
    { absent := Function.update_self _ _ _
      accounted := accounted
      objects := objects
      throws := throws
      free := by cases storage' <;> exact free
      empty := empty }
  have granted : ((gone.setObject b (some { o with buffer := none })).grant storage'
      values.length).live storage' = [] := by
    rw [Layout.grant_live]
    exact empty
  have next : 0 = (((gone.setObject b (some { o with buffer := none })).grant storage'
      values.length).live storage').length := by
    rw [granted, List.length_nil]
  have room : 0 + values.length ≤ ((gone.setObject b (some { o with buffer := none })).grant
      storage' values.length).room storage' := by
    rw [Nat.zero_add]
    refine free.held.room ?_
    rw [Layout.grant_objects]
    simp [Layout.setObject]
  have copied := copyImpl_spec shows₃ true next room
  rw [granted, List.nil_append] at copied
  refine (copied.onThrow ?_).bind (fun _ m₄ shows₄ => ?_) fun _ => id
  · rintro m₄ ⟨_, may, shows₄⟩
    refine (deallocate_spec shows₄ free.held granted).mono (fun _ m₅ shows₅ => ?_) fun _ => id
    rw [free.release_grant] at shows₅
    rw [Layout.MayThrow, Layout.grant_throws] at may
    exact emptied m₅ ⟨may, shows₅⟩
  · refine (setObject_spec shows₄ _).mono (fun _ m₅ shows₅ => ?_) fun _ => id
    have settled : max t.N values.length = values.length := Nat.max_eq_right (Nat.le_of_lt large)
    have layout : (((gone.setObject b (some { o with buffer := none })).grant storage'
        values.length).setLive storage' values).setObject b
          (some { capacity := values.length, buffer := some storage', size := values.length }) =
        constructed gone b (max t.N values.length) storage' values.length values := by
      rw [settled, constructed]
      cases storage' <;>
        simp [Layout.setObject, Layout.grant, Layout.newBlock, Layout.setLive]
    rw [layout] at shows₅
    exact ⟨_, (constructing.complete (by omega) shows₅).of_drop⟩

theorem assign_self (keeps : Keeps w b o list m) {throws : BufferMemory t → Prop} :
    Spec (assign b b) m (fun _ m' => Keeps w b o list m') throws := by
  rw [assign, if_pos rfl]
  exact keeps

/-- Elements are popped, and the others overwritten. -/
theorem assignShorter_spec (keeps : Keeps w b o list m) (less : values.length ≤ list.length) :
    Spec (do
        popBackN b (list.length - values.length)
        assignImpl o.buffer 0 values) m
      (fun _ m' => ∃ o', Keeps w b o' values m') (Leaves w b) := by
  refine (popBackN_spec keeps (Nat.sub_le _ _)).bind (fun _ m₁ keeps₁ => ?_) fun _ => id
  have length : (list.take (list.length - (list.length - values.length))).length =
      values.length := by
    rw [List.length_take]
    omega
  have within : 0 + values.length ≤
      (list.take (list.length - (list.length - values.length))).length := by omega
  refine (assignImpl_keeps keeps₁ within).mono (fun _ m₂ keeps₂ => ?_) fun _ => id
  rw [overwrite_whole length.symm] at keeps₂
  exact ⟨_, keeps₂⟩

/-- Elements are pushed, and all overwritten. -/
theorem assignWithin_spec (keeps : Keeps w b o list m) (more : list.length ≤ values.length)
    (fits : values.length ≤ o.capacity) :
    Spec (do
        uncheckedPushBackN b (values.length - list.length)
        assignImpl o.buffer 0 values) m
      (fun _ m' => ∃ o', Keeps w b o' values m') (Leaves w b) := by
  refine (uncheckedPushBackN_spec keeps (by omega)).bind (fun _ m₁ keeps₁ => ?_) fun _ => id
  have length : (list ++ grownElements t (values.length - list.length)).length =
      values.length := by
    rw [List.length_append, grownElements_length]
    omega
  have within : 0 + values.length ≤
      (list ++ grownElements t (values.length - list.length)).length := by omega
  refine (assignImpl_keeps keeps₁ within).mono (fun _ m₂ keeps₂ => ?_) fun _ => id
  rw [overwrite_whole length.symm] at keeps₂
  exact ⟨_, keeps₂⟩

/-- What an assignment that throws leaves. -/
def AssignmentFails (w : Others t) (b : BufferName) (o : AutoBuffer) (values : List t.T)
    (m : BufferMemory t) : Prop :=
  (values.length ≤ o.capacity → Leaves w b m) ∧
    (o.capacity < values.length → w.MayThrow ∧ Emptied w b { o with buffer := none } m)

theorem assign_spec (apart : b ≠ r) (keeps : Keeps (w.put r q other) b o list m) :
    Spec (assign b r) m (fun _ m' => ∃ o', Keeps (w.put r q other) b o' other m')
      (AssignmentFails (w.put r q other) b o other) := by
  have right : Keeps (w.put b o list) r q other m := keeps.turn apart
  have size : q.size = other.length := right.size
  have mine : o.size = list.length := keeps.size
  have fits := keeps.fits
  rw [assign, if_neg apart]
  refine Spec.after keeps.object ?_
  refine Spec.after right.object ?_
  refine Spec.after right.readAll ?_
  rw [size, mine]
  refine Spec.bind (?_ : Spec _ m (fun _ m' => ∃ o', Keeps (w.put r q other) b o' other m') _) ?_
    fun _ => id
  · split
    · rename_i less
      exact (assignShorter_spec keeps less).mono (fun _ _ => id) fun m' leaves =>
        ⟨fun _ => leaves, fun more => absurd more (by omega)⟩
    · split
      · rename_i more enough
        exact (assignWithin_spec keeps (by omega) enough).mono (fun _ _ => id) fun m' leaves =>
          ⟨fun _ => leaves, fun more => absurd more (by omega)⟩
      · rename_i more
        rw [← mine]
        exact (reassign_spec keeps (Nat.not_le.mp more)).mono (fun _ _ => id) fun m' emptied =>
          ⟨fun enough => absurd enough more, fun _ => emptied⟩
  · rintro _ m₁ ⟨o', keeps₁⟩
    refine Spec.after keeps₁.object ?_
    refine Spec.after (assert_returned (decide_eq_true keeps₁.size)) ?_
    exact keeps₁.assertValid_spec.mono (fun _ m₂ keeps₂ => ⟨o', keeps₂⟩) fun _ => id

/-! ### Swapping element by element -/

theorem assignElement_keeps {i : Nat} {v : t.T} (keeps : Keeps w b o list m)
    (inside : i < list.length) {throws : BufferMemory t → Prop} :
    Spec (assignElement o.buffer i v) m (fun _ m' => Keeps w b o (list.set i v) m') throws := by
  obtain ⟨l, storage, keeping⟩ := keeps
  have live := keeping.housed.live
  rw [keeping.housed.buffer]
  have there : i < (l.live storage).length := by
    rw [live]
    exact inside
  refine (assignElement_spec keeping.shows there).mono (fun _ m₁ shows₁ => ?_) fun _ => id
  rw [live] at shows₁
  exact keeping.rewrite List.length_set shows₁

theorem copyMayThrow_keeps (keeps : Keeps w b o list m) :
    Spec copyMayThrow m (fun _ m' => Keeps w b o list m') fun _ => w.MayThrow := by
  obtain ⟨l, storage, keeping⟩ := keeps
  exact (copyMayThrow_spec keeping.shows).mono (fun _ m₁ shows₁ => keeping.shown shows₁)
    fun m' thrown => keeping.mayThrow thrown.2.1

theorem assignMayThrow_keeps (keeps : Keeps w b o list m) :
    Spec assignMayThrow m (fun _ m' => Keeps w b o list m') fun _ => w.MayThrow := by
  obtain ⟨l, storage, keeping⟩ := keeps
  exact (assignMayThrow_spec keeping.shows).mono (fun _ m₁ shows₁ => keeping.shown shows₁)
    fun m' thrown => keeping.mayThrow thrown.1

theorem subscript_eq {i : Nat} (keeps : Keeps w b o list m) (inside : i < list.length) :
    subscript b i m = .returned list[i] m := by
  have object := keeps.object
  have read := keeps.readElement inside
  have within : decide (i < o.size) = true := by
    rw [keeps.size]
    exact decide_eq_true inside
  simp only [subscript, bind, object, assert_returned within, read]

theorem swapElement_spec {i : Nat} (apart : b ≠ r) (keeps : Keeps (w.put r q other) b o list m)
    (left : i < list.length) (right : i < other.length) :
    Spec (swapElement b r i) m
      (fun _ m' => Keeps (w.put r q (other.set i list[i])) b o (list.set i other[i]) m')
      fun _ => w.MayThrow := by
  have keepsR := keeps.turn apart
  unfold swapElement
  refine Spec.after (subscript_eq keeps left) ?_
  refine Spec.after (subscript_eq keepsR right) ?_
  refine Spec.after keeps.object ?_
  refine Spec.after keepsR.object ?_
  refine (copyMayThrow_keeps keeps).bind (fun _ m₁ keeps₁ => ?_) fun _ => id
  refine (assignMayThrow_keeps keeps₁).bind (fun _ m₂ keeps₂ => ?_) fun _ => id
  refine (assignElement_keeps keeps₂ left).bind (fun _ m₃ keeps₃ => ?_) fun _ => id
  refine (assignMayThrow_keeps keeps₃).bind (fun _ m₄ keeps₄ => ?_) fun _ => id
  refine (assignElement_keeps (keeps₄.turn apart) right).mono (fun _ m₅ keeps₅ => ?_) fun _ => id
  exact keeps₅.turn (Ne.symm apart)

theorem swapElement_self {i : Nat} (keeps : Keeps w b o list m) (inside : i < list.length) :
    Spec (swapElement b b i) m (fun _ m' => Keeps w b o list m') fun _ => w.MayThrow := by
  unfold swapElement
  refine Spec.after (subscript_eq keeps inside) ?_
  refine Spec.after (subscript_eq keeps inside) ?_
  refine Spec.after keeps.object ?_
  refine Spec.after keeps.object ?_
  have same : list.set i list[i] = list := List.set_getElem_self inside
  refine (copyMayThrow_keeps keeps).bind (fun _ m₁ keeps₁ => ?_) fun _ => id
  refine (assignMayThrow_keeps keeps₁).bind (fun _ m₂ keeps₂ => ?_) fun _ => id
  refine (assignElement_keeps keeps₂ inside).bind (fun _ m₃ keeps₃ => ?_) fun _ => id
  rw [same] at keeps₃
  refine (assignMayThrow_keeps keeps₃).bind (fun _ m₄ keeps₄ => ?_) fun _ => id
  refine (assignElement_keeps keeps₄ inside).mono (fun _ m₅ keeps₅ => ?_) fun _ => id
  rwa [same] at keeps₅

/-- One element more has been taken over. -/
theorem take_append_drop_set {Element : Type} {front back : List Element} {i : Nat}
    (inside : i < front.length) (within : i < back.length) :
    (front.take i ++ back.drop i).set i front[i] = front.take (i + 1) ++ back.drop (i + 1) := by
  have length : (front.take i).length = i := by
    rw [List.length_take]
    omega
  rw [List.set_append_right _ _ (by omega), length, Nat.sub_self,
    List.drop_eq_getElem_cons within, List.set_cons_zero,
    List.take_succ_eq_append_getElem inside, List.append_assoc]
  rfl

theorem getElem_take_append_drop {Element : Type} {front back : List Element} {i : Nat}
    (inside : i < front.length) (within : i < back.length)
    (bound : i < (front.take i ++ back.drop i).length) :
    (front.take i ++ back.drop i)[i] = back[i] := by
  have length : (front.take i).length = i := by
    rw [List.length_take]
    omega
  rw [List.getElem_append_right (by omega)]
  simp [length]

/-- After `i` rounds the first `i` elements have changed places. -/
theorem swapElements_spec (apart : b ≠ r) (keeps : Keeps (w.put r q other) b o list m)
    (left : n ≤ list.length) (right : n ≤ other.length) :
    Spec (repeatUpTo (fun i => swapElement b r i) n) m
      (fun _ m' => Keeps (w.put r q (list.take n ++ other.drop n)) b o
        (other.take n ++ list.drop n) m')
      fun _ => w.MayThrow := by
  let swapped : Nat → BufferMemory t → Prop := fun i m' =>
    Keeps (w.put r q (list.take i ++ other.drop i)) b o (other.take i ++ list.drop i) m'
  refine @spec_repeatUpTo _ _ _ _ _ _ swapped ?_ ?_
  · simpa [swapped] using keeps
  · intro i below m₁ keeps₁
    have inside : i < list.length := by omega
    have within : i < other.length := by omega
    have insideL : i < (other.take i ++ list.drop i).length := by
      rw [List.length_append, List.length_take, List.length_drop]
      omega
    have insideR : i < (list.take i ++ other.drop i).length := by
      rw [List.length_append, List.length_take, List.length_drop]
      omega
    refine (swapElement_spec apart keeps₁ insideL insideR).mono (fun _ m₂ keeps₂ => ?_) fun _ => id
    rw [getElem_take_append_drop within inside insideL,
      getElem_take_append_drop inside within insideR, take_append_drop_set inside within,
      take_append_drop_set within inside] at keeps₂
    exact keeps₂

/-- The rest of the longer list is pushed behind the shorter one. -/
theorem pushRest_spec (apart : b ≠ r) (keeps : Keeps (w.put r q other) b o list m)
    (start : Nat) (within : start + n ≤ other.length) (room : list.length + n ≤ o.capacity) :
    Spec (repeatUpTo (fun k => do
        let v ← subscript r (start + k)
        uncheckedPushBack b v) n) m
      (fun _ m' => Keeps (w.put r q other) b { o with size := o.size + n }
        (list ++ (other.drop start).take n) m')
      fun _ => w.MayThrow := by
  let pushed : Nat → BufferMemory t → Prop := fun k m' =>
    Keeps (w.put r q other) b { o with size := o.size + k } (list ++ (other.drop start).take k) m'
  refine @spec_repeatUpTo _ _ _ _ _ _ pushed ?_ ?_
  · simpa [pushed] using keeps
  · intro k below m₁ keeps₁
    have inside : start + k < other.length := by omega
    refine Spec.after (subscript_eq (keeps₁.turn apart) inside) ?_
    have fits : (list ++ (other.drop start).take k).length < o.capacity := by
      rw [List.length_append, List.length_take, List.length_drop]
      omega
    refine (uncheckedPushBack_spec keeps₁ fits other[start + k]).mono (fun _ m₂ keeps₂ => ?_)
      fun m' thrown => thrown.1
    have next : (other.drop start).take (k + 1) =
        (other.drop start).take k ++ [other[start + k]] := by
      rw [List.take_succ_eq_append_getElem (by rw [List.length_drop]; omega), List.getElem_drop]
    simp only [pushed, next, ← List.append_assoc]
    exact keeps₂

theorem setObject_same (keeps : Keeps w b o list m) {throws : BufferMemory t → Prop} :
    Spec (setObject b o) m (fun _ m' => Keeps w b o list m') throws := by
  obtain ⟨l, storage, keeping⟩ := keeps
  refine (setObject_spec keeping.shows o).mono (fun _ m₁ shows₁ => ?_) fun _ => id
  have same : l.setObject b (some o) = l := by
    rw [← keeping.housed.object, Layout.setObject, Function.update_eq_self]
  rw [same] at shows₁
  exact keeping.shown shows₁

/-- The shorter list goes to the front of the longer one, whose rest goes the other way. -/
theorem exchange_spec {smallest largest : BufferName} (apart : smallest ≠ largest)
    (keeps : Keeps (w.put largest q other) smallest o list m)
    (less : list.length ≤ other.length) (room : other.length ≤ o.capacity) :
    Spec (do
        repeatUpTo (fun i => swapElement smallest largest i) list.length
        repeatUpTo (fun k => do
          let v ← subscript largest (list.length + k)
          uncheckedPushBack smallest v) (other.length - list.length)
        popBackN largest (other.length - list.length)) m
      (fun _ m' => Keeps (w.put largest { q with size := list.length } list) smallest
        { o with size := other.length } other m')
      fun _ => w.MayThrow := by
  have size : o.size = list.length := keeps.size
  have sizeQ : q.size = other.length := (keeps.turn apart).size
  refine (swapElements_spec apart keeps (Nat.le_refl _) less).bind (fun _ m₁ keeps₁ => ?_)
    fun _ => id
  rw [List.take_length, List.drop_length, List.append_nil] at keeps₁
  have length : (list ++ other.drop list.length).length = other.length := by
    rw [List.length_append, List.length_drop]
    omega
  have front : (other.take list.length).length = list.length := by
    rw [List.length_take]
    omega
  have pushed := pushRest_spec (n := other.length - list.length) apart keeps₁ list.length
    (by omega) (by omega)
  have rest : ((list ++ other.drop list.length).drop list.length).take
      (other.length - list.length) = other.drop list.length := by
    rw [List.drop_left, List.take_of_length_le]
    rw [List.length_drop]
  rw [rest, List.take_append_drop] at pushed
  refine pushed.bind (fun _ m₂ keeps₂ => ?_) fun _ => id
  have enough : other.length - list.length ≤ (list ++ other.drop list.length).length := by omega
  refine (popBackN_spec (keeps₂.turn apart) enough).mono (fun _ m₃ keeps₃ => ?_) fun _ => id
  have back : (list ++ other.drop list.length).take
      ((list ++ other.drop list.length).length - (other.length - list.length)) = list := by
    have kept : (list ++ other.drop list.length).length - (other.length - list.length) =
        list.length := by omega
    rw [kept, List.take_left]
  have sizes : o.size + (other.length - list.length) = other.length ∧
      q.size - (other.length - list.length) = list.length := by omega
  rw [back, sizes.1, sizes.2] at keeps₃
  exact keeps₃.turn (Ne.symm apart)

/-- The exchange of two equal capacities. -/
theorem exchangeCapacities_spec (apart : b ≠ r) (keeps : Keeps (w.put r q other) b o list m)
    (same : o.capacity = q.capacity) {throws : BufferMemory t → Prop} :
    Spec (do
        let ol ← object b
        let or ← object r
        setObject b { ol with capacity := or.capacity }
        let or' ← object r
        setObject r { or' with capacity := ol.capacity }) m
      (fun _ m' => Keeps (w.put r q other) b o list m') throws := by
  have left : { o with capacity := q.capacity } = o := by rw [← same]
  have right : { q with capacity := o.capacity } = q := by rw [same]
  refine Spec.after keeps.object ?_
  refine Spec.after (keeps.turn apart).object ?_
  rw [left]
  refine (setObject_same keeps).bind (fun _ m₁ keeps₁ => ?_) fun _ => id
  refine Spec.after (keeps₁.turn apart).object ?_
  rw [right]
  exact (setObject_same (keeps₁.turn apart)).mono
    (fun _ m₂ keeps₂ => keeps₂.turn (Ne.symm apart)) fun _ => id

theorem swapHelper_spec (apart : b ≠ r) (keeps : Keeps (w.put r q other) b o list m)
    (left : o.isOnStack t = true) (right : q.isOnStack t = true) :
    Spec (swapHelper b r) m (fun _ m' => ∃ o' q', Keeps (w.put r q' list) b o' other m')
      fun _ => w.MayThrow := by
  have keepsR := keeps.turn apart
  have size : o.size = list.length := keeps.size
  have sizeQ : q.size = other.length := keepsR.size
  have capacityO := keeps.onStack.mp left
  have capacityQ := keepsR.onStack.mp right
  have fits := keeps.fits
  have fitsQ := keepsR.fits
  unfold swapHelper
  refine Spec.after keeps.object ?_
  refine Spec.after keepsR.object ?_
  refine Spec.after (assert_returned (by rw [left, right]; rfl)) ?_
  dsimp only
  rw [size, sizeQ]
  by_cases less : list.length ≤ other.length
  · rw [Nat.min_eq_left less, Nat.max_eq_right less, if_pos rfl, if_pos rfl]
    have exchanged := exchange_spec apart keeps less (by omega)
    have whole : Spec _ m (fun _ m' => ∃ o' q', Keeps (w.put r q' list) b o' other m')
        fun _ => w.MayThrow := exchanged.bind (fun _ m₁ keeps₁ =>
      (exchangeCapacities_spec apart keeps₁ (capacityO.trans capacityQ.symm)).mono
        (fun _ m₂ keeps₂ => ⟨_, _, keeps₂⟩) fun _ => id) fun _ => id
    simpa only [Program.bind_assoc] using whole
  · have more : other.length ≤ list.length := by omega
    have different : list.length ≠ other.length := by omega
    rw [Nat.min_eq_right more, Nat.max_eq_left more, if_neg different, if_neg (Ne.symm apart)]
    have exchanged := exchange_spec (Ne.symm apart) keepsR more (by omega)
    have whole : Spec _ m (fun _ m' => ∃ o' q', Keeps (w.put r q' list) b o' other m')
        fun _ => w.MayThrow := exchanged.bind (fun _ m₁ keeps₁ =>
      (exchangeCapacities_spec apart (keeps₁.turn (Ne.symm apart))
        (capacityO.trans capacityQ.symm)).mono
        (fun _ m₂ keeps₂ => ⟨_, _, keeps₂⟩) fun _ => id) fun _ => id
    simpa only [Program.bind_assoc] using whole

/-- A buffer that is swapped with itself. -/
theorem swapHelper_self (keeps : Keeps w b o list m) (left : o.isOnStack t = true) :
    Spec (swapHelper b b) m (fun _ m' => Keeps w b o list m') fun _ => w.MayThrow := by
  have size : o.size = list.length := keeps.size
  unfold swapHelper
  refine Spec.after keeps.object ?_
  refine Spec.after keeps.object ?_
  refine Spec.after (assert_returned (by rw [left]; rfl)) ?_
  dsimp only
  rw [Nat.min_self, Nat.max_self, if_pos rfl, if_pos rfl, Nat.sub_self]
  refine Spec.bind (?_ : Spec _ m (fun _ m' => Keeps w b o list m') _)
    (fun _ m₁ keeps₁ => ?_) fun _ => id
  · refine @spec_repeatUpTo _ _ _ _ _ _ (fun _ m' => Keeps w b o list m') keeps ?_
    intro i below m₁ keeps₁
    exact swapElement_self keeps₁ (by omega)
  · refine Spec.bind (?_ : Spec _ m₁ (fun _ m' => Keeps w b o list m') _)
      (fun _ m₂ keeps₂ => ?_) fun _ => id
    · exact keeps₁
    · have popped : Spec (popBackN b 0) m₂ (fun _ m' => Keeps w b o list m')
          fun _ => w.MayThrow := by
        refine (popBackN_spec keeps₂ (Nat.zero_le _)).mono (fun _ m₃ keeps₃ => ?_) fun _ => id
        have all : list.take (list.length - 0) = list := by rw [Nat.sub_zero, List.take_length]
        rw [all] at keeps₃
        exact keeps₃
      refine popped.bind (fun _ m₃ keeps₃ => ?_) fun _ => id
      refine Spec.after keeps₃.object ?_
      refine Spec.after keeps₃.object ?_
      refine (setObject_same keeps₃).bind (fun _ m₄ keeps₄ => ?_) fun _ => id
      refine Spec.after keeps₄.object ?_
      exact setObject_same keeps₄

end AutoBuffer

/-! ### Two buffers at once -/

/-- Among other buffers, `b` and `r` are these objects with these elements. -/
structure Pairing (w : Others t) (b : BufferName) (o : AutoBuffer) (list : List t.T)
    (r : BufferName) (q : AutoBuffer) (other : List t.T) (l : Layout t)
    (storage storage' : Storage) (m : BufferMemory t) : Prop where
  shows : Shows m l
  accounted : l.Accounted
    (Function.update (Function.update w.lists r (some other)) b (some list))
  housed : l.Housed b o storage list
  housedR : l.Housed r q storage' other
  others : ∀ x, x ≠ b → x ≠ r → l.objects x = w.objects x
  throws : l.throws = w.throws

theorem Keeps.pairing (apart : b ≠ r) (keeps : Keeps (w.put r q other) b o list m) :
    ∃ l storage storage', Pairing w b o list r q other l storage storage' m := by
  obtain ⟨l, storage, keeping⟩ := keeps
  have there : l.objects r = some q := by
    rw [keeping.others r (Ne.symm apart), Others.put_object]
  obtain ⟨storage', list', entry, housed⟩ := keeping.accounted.housed there
  rw [Function.update_of_ne (Ne.symm apart), Others.put_entry, Option.some.injEq] at entry
  subst entry
  refine ⟨l, storage, storage',
    { shows := keeping.shows
      accounted := keeping.accounted
      housed := keeping.housed
      housedR := housed
      others := ?_
      throws := keeping.throws }⟩
  intro x different different'
  rw [keeping.others x different, Others.put_object_other different']

namespace Pairing

variable {storage' : Storage}

theorem keeps (pairing : Pairing w b o list r q other l storage storage' m) :
    Keeps (w.put r q other) b o list m := by
  refine ⟨l, storage,
    { shows := pairing.shows
      accounted := pairing.accounted
      housed := pairing.housed
      others := ?_
      throws := pairing.throws }⟩
  intro x different
  by_cases same : x = r
  · subst same
    rw [pairing.housedR.object, Others.put_object]
  · rw [pairing.others x different same, Others.put_object_other same]

theorem distinct (apart : b ≠ r) (pairing : Pairing w b o list r q other l storage storage' m) :
    storage ≠ storage' := by
  rintro rfl
  exact apart (pairing.accounted.apart b r storage pairing.housed.owns pairing.housedR.owns)

/-- The two objects have changed, with their elements. -/
theorem exchanged {o' q' : AutoBuffer} {listB listR : List t.T} {newB newR : Storage}
    {l' : Layout t} (apart : b ≠ r) (pairing : Pairing w b o list r q other l storage storage' m)
    (Touched : Storage → Prop) (shows : Shows m' l')
    (after : l'.Housed b o' newB listB) (afterR : l'.Housed r q' newR listR)
    (others : ∀ x, x ≠ b → x ≠ r → l'.objects x = l.objects x)
    (elsewhere : ∀ s, ¬ Touched s →
      l'.live s = l.live s ∧ ∀ k, s = .block k → l'.blocks k = l.blocks k)
    (theirs : ∀ x s, Touched s → l.Owns x s → x = b ∨ x = r)
    (old : Touched storage ∧ Touched storage') (new : Touched newB ∧ Touched newR)
    (distinct : newB ≠ newR)
    (cleared : ∀ s, Touched s → s ≠ newB → s ≠ newR →
      l'.live s = [] ∧ ∀ k, s = .block k → l'.blocks k = none)
    (count : l'.count = l.count + listB.length + listR.length - list.length - other.length)
    (throws : l'.throws = l.throws) :
    Keeps (w.put r q' listR) b o' listB m' := by
  have accounted := pairing.accounted.changeTwo apart Touched pairing.housed pairing.housedR
    after afterR others elsewhere theirs old new distinct cleared count
  rw [Function.update_comm apart, Function.update_idem, Function.update_idem] at accounted
  have changed : Pairing w b o' listB r q' listR l' newB newR m' :=
    { shows := shows
      accounted := accounted
      housed := after
      housedR := afterR
      others := fun x different different' =>
        (others x different different').trans (pairing.others x different different')
      throws := throws.trans pairing.throws }
  exact changed.keeps

end Pairing

namespace AutoBuffer

/-- Both buffers have blocks, which they exchange. -/
theorem swapOnHeap_spec (apart : b ≠ r) (keeps : Keeps (w.put r q other) b o list m)
    (left : o.isOnStack t = false) (right : q.isOnStack t = false)
    {throws : BufferMemory t → Prop} :
    Spec (do setObject b q; setObject r o) m
      (fun _ m' => ∃ o' q', Keeps (w.put r q' list) b o' other m') throws := by
  obtain ⟨l, storage, storage', pairing⟩ := keeps.pairing apart
  have housed := pairing.housed
  have housedR := pairing.housedR
  refine (setObject_spec pairing.shows q).bind (fun _ m₁ shows₁ => ?_) fun _ => id
  refine (setObject_spec shows₁ o).mono (fun _ m₂ shows₂ => ?_) fun _ => id
  refine ⟨q, o, ?_⟩
  have outside : storage ≠ .internal b := by
    intro inside
    rw [housed.onStack.mpr inside] at left
    cases left
  have outside' : storage' ≠ .internal r := by
    intro inside
    rw [housedR.onStack.mpr inside] at right
    cases right
  have after : ((l.setObject b (some q)).setObject r (some o)).Housed b q storage' other :=
    { object := by simp [Layout.setObject, apart]
      buffer := housedR.buffer
      size := housedR.size
      live := housedR.live
      fits := housedR.fits
      least := housedR.least
      holds := by
        have holds := housedR.holds
        cases storage' with
        | internal x =>
            rw [holds.1] at outside'
            exact absurd rfl outside'
        | block k => exact holds }
  have afterR : ((l.setObject b (some q)).setObject r (some o)).Housed r o storage list :=
    { object := by simp [Layout.setObject]
      buffer := housed.buffer
      size := housed.size
      live := housed.live
      fits := housed.fits
      least := housed.least
      holds := by
        have holds := housed.holds
        cases storage with
        | internal x =>
            rw [holds.1] at outside
            exact absurd rfl outside
        | block k => exact holds }
  refine pairing.exchanged apart (fun s => s = storage ∨ s = storage') shows₂ after afterR ?_ ?_ ?_
    ⟨.inl rfl, .inr rfl⟩ ⟨.inr rfl, .inl rfl⟩ (Ne.symm (pairing.distinct apart)) ?_ ?_ rfl
  · intro x different different'
    simp [Layout.setObject, different, different']
  · intro s _
    exact ⟨rfl, fun _ _ => rfl⟩
  · rintro x s (rfl | rfl) owns
    · exact .inl (pairing.accounted.apart x b s owns housed.owns)
    · exact .inr (pairing.accounted.apart x r s owns housedR.owns)
  · rintro s (rfl | rfl) notNew notNew'
    · exact absurd rfl notNew'
    · exact absurd rfl notNew
  · change l.count = _
    omega

/-- The elements of the one on the stack go to the free storage of the other, whose block
goes the other way. -/
theorem swapOneOnStack_spec (apart : b ≠ r) (keeps : Keeps (w.put r q other) b o list m)
    (left : o.isOnStack t = true) (right : q.isOnStack t = false) :
    Spec (swapOneOnStack b r) m (fun _ m' => ∃ o' q', Keeps (w.put r q' list) b o' other m')
      fun _ => w.MayThrow := by
  obtain ⟨l, storage, storage', pairing⟩ := keeps.pairing apart
  have housed := pairing.housed
  have housedR := pairing.housedR
  have inside : storage = .internal b := housed.onStack.mp left
  subst inside
  have outside' : storage' ≠ .internal r := by
    intro inside
    rw [housedR.onStack.mpr inside] at right
    cases right
  have vacant : l.live (.internal r) = [] := pairing.accounted.unused housedR outside'
  have apartStorage : Storage.internal r ≠ Storage.internal b := by
    intro same
    exact apart (Storage.internal.inj same).symm
  have room : 0 + list.length ≤ l.room (.internal r) := by
    have capacity := keeps.onStack.mp left
    have fits := housed.fits
    simp only [Layout.room, housedR.object, Option.isSome_some, if_true]
    omega
  unfold swapOneOnStack
  refine Spec.after (object_eq pairing.shows housed.object) ?_
  refine Spec.after (object_eq pairing.shows housedR.object) ?_
  dsimp only
  refine Spec.after keeps.readAll ?_
  have copied := copyImpl_spec pairing.shows false (by rw [vacant, List.length_nil]) room
  rw [vacant, List.nil_append] at copied
  refine copied.bind (fun _ m₁ shows₁ => ?_) fun m' thrown => ?_
  · have housed₁ : (l.setLive (.internal r) list).Housed b o (.internal b) list :=
      @Layout.Housed.elsewhere _ l b o _ (.internal r) list list o.capacity housed apartStorage
    refine (autoBufferDestroy_spec shows₁ housed₁).bind (fun _ m₂ shows₂ => ?_) fun _ => id
    refine (setObject_spec shows₂ q).bind (fun _ m₃ shows₃ => ?_) fun _ => id
    refine (setObject_spec shows₃ { o with buffer := some (.internal r) }).bind
      (fun _ m₄ shows₄ => ?_) fun _ => id
    refine Spec.after (assert_returned left) ?_
    rw [spec_assert, right]
    refine ⟨rfl, q, { o with buffer := some (.internal r) }, ?_⟩
    have distinct : Storage.internal b ≠ storage' := pairing.distinct apart
    have after : (((((l.setLive (.internal r) list).setLive (.internal b) []).release
        (.internal b)).setObject b (some q)).setObject r
          (some { o with buffer := some (.internal r) })).Housed b q storage' other :=
      { object := by simp [Layout.setObject, apart]
        buffer := housedR.buffer
        size := housedR.size
        live := by
          rw [Layout.setObject_live, Layout.setObject_live, Layout.release_live,
            Layout.setLive_live_other (Ne.symm distinct), Layout.setLive_live_other outside']
          exact housedR.live
        fits := housedR.fits
        least := housedR.least
        holds := by
          have holds := housedR.holds
          cases storage' with
          | internal x =>
              rw [holds.1] at outside'
              exact absurd rfl outside'
          | block k => exact holds }
    have afterR : (((((l.setLive (.internal r) list).setLive (.internal b) []).release
        (.internal b)).setObject b (some q)).setObject r
          (some { o with buffer := some (.internal r) })).Housed r
            { o with buffer := some (.internal r) } (.internal r) list :=
      { object := by simp [Layout.setObject]
        buffer := rfl
        size := housed.size
        live := by
          rw [Layout.setObject_live, Layout.setObject_live, Layout.release_live,
            Layout.setLive_live_other apartStorage, Layout.setLive_live]
        fits := housed.fits
        least := housed.least
        holds := ⟨rfl, housed.holds.2⟩ }
    refine pairing.exchanged apart
      (fun s => s = .internal b ∨ s = storage' ∨ s = .internal r) shows₄ after afterR ?_ ?_ ?_
      ⟨.inl rfl, .inr (.inl rfl)⟩ ⟨.inr (.inl rfl), .inr (.inr rfl)⟩ outside' ?_ ?_ rfl
    · intro x different different'
      simp [Layout.setObject, different, different']
    · intro s untouched
      rw [not_or, not_or] at untouched
      refine ⟨?_, fun _ _ => rfl⟩
      rw [Layout.setObject_live, Layout.setObject_live, Layout.release_live,
        Layout.setLive_live_other untouched.1, Layout.setLive_live_other untouched.2.2]
    · rintro x s (rfl | rfl | rfl) owns
      · exact .inl (pairing.accounted.apart x b _ owns housed.owns)
      · exact .inr (pairing.accounted.apart x r s owns housedR.owns)
      · have free : l.Free r t.N (.internal r) := ⟨rfl, Nat.le_refl _⟩
        exact .inr (pairing.accounted.unowned free owns)
    · rintro s (rfl | rfl | rfl) notNew notNew'
      · refine ⟨?_, ?_⟩
        · rw [Layout.setObject_live, Layout.setObject_live, Layout.release_live,
            Layout.setLive_live]
        · intro k impossible
          cases impossible
      · exact absurd rfl notNew
      · exact absurd rfl notNew'
    · have kept : ((l.setLive (.internal r) list).live (.internal b)).length = list.length := by
        rw [Layout.setLive_live_other (Ne.symm apartStorage), housed.live]
      change l.count + list.length - (l.live (.internal r)).length + ([] : List t.T).length -
        ((l.setLive (.internal r) list).live (.internal b)).length = _
      rw [vacant, kept]
      simp only [List.length_nil, Nat.cast_zero]
      omega
  · rw [Others.MayThrow, ← pairing.throws]
    exact thrown.2.1

/-! ### Elements without destructors -/

/-- One more element than there were is written behind them. -/
theorem overwriteNext_spec (trivial : t.traits.trivialDestructor = true) (shows : Shows m l)
    {v : t.T} (room : (l.live storage).length < l.room storage)
    {throws : BufferMemory t → Prop} :
    Spec (overwriteElement (some storage) (l.live storage).length v) m
      (fun _ m' => Shows m' (l.setLive storage (l.live storage ++ [v]))) throws := by
  have within : ¬ m.room storage ≤ (l.live storage).length := by
    rw [shows.room]
    omega
  simp only [Spec, overwriteElement, if_neg within]
  refine shows.setCell ?_ ?_ ?_ ?_
  · intro j inside
    rw [List.length_append, List.length_singleton] at inside
    by_cases last : j = (l.live storage).length
    · subst last
      simp
    · have earlier : j < (l.live storage).length := by omega
      rw [Function.update_of_ne last, List.getElem?_append_left earlier]
      exact shows.cells storage j earlier
  · intro runs
    rw [trivial] at runs
    cases runs
  · intro runs
    rw [trivial] at runs
    cases runs
  · rw [List.length_append, List.length_singleton]
    exact room

/-- What is copied byte by byte may be more or less than there was. -/
theorem memcpyWhole_spec (trivial : t.traits.trivialDestructor = true) (shows : Shows m l)
    (room : values.length ≤ l.room storage) {throws : BufferMemory t → Prop} :
    Spec (memcpyAssign (some storage) 0 values) m
      (fun _ m' => Shows m' (l.setLive storage values)) throws := by
  have appends : ∀ (rest : List t.T) (m : BufferMemory t) (l : Layout t), Shows m l →
      (l.live storage).length + rest.length ≤ l.room storage →
      Spec (memcpyAssign (some storage) (l.live storage).length rest) m
        (fun _ m' => Shows m' (l.setLive storage (l.live storage ++ rest))) throws := by
    intro rest
    induction rest with
    | nil =>
        intro m l shows _
        rw [List.append_nil, Layout.setLive_same rfl]
        exact shows
    | cons v rest ih =>
        intro m l shows room
        rw [List.length_cons] at room
        refine (overwriteNext_spec trivial shows (by omega)).bind (fun _ m₁ shows₁ => ?_)
          fun _ => id
        have later := ih m₁ _ shows₁ (by
          rw [Layout.setLive_live, Layout.setLive_room, List.length_append, List.length_singleton]
          omega)
        rw [Layout.setLive_live, Layout.setLive_setLive, List.append_assoc, List.length_append]
          at later
        exact later
  have forgotten : Shows m (l.setLive storage []) :=
    shows.forget trivial (fun j inside => absurd inside (Nat.not_lt_zero j)) (Nat.zero_le _)
  have all := appends values m _ forgotten (by
    rw [Layout.setLive_live, Layout.setLive_room, List.length_nil, Nat.zero_add]
    exact room)
  rwa [Layout.setLive_live, Layout.setLive_setLive] at all

/-- The bytes of one list over those of the other, and then those that were saved. -/
theorem exchangeBytes_spec {p : AutoBuffer} (trivial : t.traits.trivialAssign = true)
    (clean : t.traits.trivialDestructor = true) (apart : b ≠ r) (named_ : b ≠ .temporary)
    (namedR : r ≠ .temporary)
    (keeps : Keeps ((w.put .temporary p list).put r q other) b o list m)
    (left : o.isOnStack t = true) (right : q.isOnStack t = true)
    {throws : BufferMemory t → Prop} :
    Spec (do
        let right ← readRange q.buffer 0 q.size
        assignImpl o.buffer 0 right
        let temp ← object .temporary
        let saved ← readRange temp.buffer 0 temp.size
        assignImpl q.buffer 0 saved
        setObject b { o with size := q.size, capacity := q.capacity }
        setObject r { q with size := o.size, capacity := o.capacity }) m
      (fun _ m' => ∃ o' q', Keeps ((w.put .temporary p list).put r q' list) b o' other m')
      throws := by
  have keepsR := keeps.turn apart
  have capacityO := keeps.onStack.mp left
  have capacityR := keepsR.onStack.mp right
  obtain ⟨l, storage, storage', pairing⟩ := keeps.pairing apart
  have housed := pairing.housed
  have housedR := pairing.housedR
  have distinct := pairing.distinct apart
  have there : l.objects .temporary = some p := by
    rw [pairing.others _ (Ne.symm named_) (Ne.symm namedR), Others.put_object]
  obtain ⟨saved, list', entry, housedT⟩ := pairing.accounted.housed there
  rw [Function.update_of_ne (Ne.symm named_), Function.update_of_ne (Ne.symm namedR),
    Others.put_entry, Option.some.injEq] at entry
  subst entry
  have apartT : saved ≠ storage := by
    rintro rfl
    exact named_ (pairing.accounted.apart b _ saved housed.owns housedT.owns)
  have room : other.length ≤ l.room storage := by
    have fits := housedR.fits
    have enough := housed.room
    omega
  have roomR : list.length ≤ l.room storage' := by
    have fits := housed.fits
    have enough := housedR.room
    omega
  refine Spec.after keepsR.readAll ?_
  simp only [assignImpl, if_pos trivial]
  rw [housed.buffer]
  refine (memcpyWhole_spec clean pairing.shows room).bind (fun _ m₁ shows₁ => ?_) fun _ => id
  refine Spec.after (object_eq shows₁ there) ?_
  rw [housedT.buffer]
  have live₁ : (l.setLive storage other).live saved = list := by
    rw [Layout.setLive_live_other apartT]
    exact housedT.live
  refine Spec.after (readRange_all shows₁ live₁ housedT.size) ?_
  rw [housedR.buffer]
  have roomR₁ : list.length ≤ (l.setLive storage other).room storage' := by
    rw [Layout.setLive_room]
    exact roomR
  refine (memcpyWhole_spec clean shows₁ roomR₁).bind (fun _ m₂ shows₂ => ?_) fun _ => id
  refine (setObject_spec shows₂ _).bind (fun _ m₃ shows₃ => ?_) fun _ => id
  refine (setObject_spec shows₃ _).mono (fun _ m₄ shows₄ => ?_) fun _ => id
  have fits := housed.fits
  have fitsR := housedR.fits
  have after : ((((l.setLive storage other).setLive storage' list).setObject b
      (some { capacity := q.capacity, buffer := some storage, size := q.size })).setObject r
        (some { capacity := o.capacity, buffer := some storage', size := o.size })).Housed b
          { capacity := q.capacity, buffer := some storage, size := q.size } storage other :=
    { object := by simp [Layout.setObject, apart]
      buffer := rfl
      size := housedR.size
      live := by
        rw [Layout.setObject_live, Layout.setObject_live, Layout.setLive_live_other distinct,
          Layout.setLive_live]
      fits := fitsR
      least := housedR.least
      holds := by
        have holds := housed.holds
        rw [capacityO] at holds
        rw [capacityR]
        cases storage <;> exact holds }
  have afterR : ((((l.setLive storage other).setLive storage' list).setObject b
      (some { capacity := q.capacity, buffer := some storage, size := q.size })).setObject r
        (some { capacity := o.capacity, buffer := some storage', size := o.size })).Housed r
          { capacity := o.capacity, buffer := some storage', size := o.size } storage' list :=
    { object := by simp [Layout.setObject]
      buffer := rfl
      size := housed.size
      live := by
        rw [Layout.setObject_live, Layout.setObject_live, Layout.setLive_live]
      fits := fits
      least := housed.least
      holds := by
        have holds := housedR.holds
        rw [capacityR] at holds
        rw [capacityO]
        cases storage' <;> exact holds }
  refine ⟨_, _, pairing.exchanged apart (fun s => s = storage ∨ s = storage') shows₄ after afterR
    ?_ ?_ ?_ ⟨.inl rfl, .inr rfl⟩ ⟨.inl rfl, .inr rfl⟩ distinct ?_ ?_ rfl⟩
  · intro x different different'
    simp [Layout.setObject, different, different']
  · intro s untouched
    rw [not_or] at untouched
    refine ⟨?_, fun _ _ => rfl⟩
    rw [Layout.setObject_live, Layout.setObject_live, Layout.setLive_live_other untouched.2,
      Layout.setLive_live_other untouched.1]
  · rintro x s (rfl | rfl) owns
    · exact .inl (pairing.accounted.apart x b s owns housed.owns)
    · exact .inr (pairing.accounted.apart x r s owns housedR.owns)
  · rintro s (rfl | rfl) notNew notNew'
    · exact absurd rfl notNew
    · exact absurd rfl notNew'
  · have kept : ((l.setLive storage other).live storage').length = other.length := by
      rw [Layout.setLive_live_other (Ne.symm distinct), housedR.live]
    change l.count + other.length - (l.live storage).length + list.length -
      ((l.setLive storage other).live storage').length = _
    rw [housed.live, kept]
    omega

/-- The elements go to a local buffer and back into the other one. -/
theorem swapHelperTrivial_spec (trivial : t.traits.trivialAssign = true)
    (clean : t.traits.trivialDestructor = true) (apart : b ≠ r) (named_ : b ≠ .temporary)
    (namedR : r ≠ .temporary) (absent : w.lists .temporary = none)
    (keeps : Keeps (w.put r q other) b o list m) (left : o.isOnStack t = true)
    (right : q.isOnStack t = true) :
    Spec (swapHelperTrivial b r) m
      (fun _ m' => ∃ o' q', Keeps (w.put r q' list) b o' other m') fun _ => w.MayThrow := by
  have keepsR := keeps.turn apart
  have vacant : ((w.put r q other).put b o list).lists .temporary = none := by
    rw [Others.put_entry_other (Ne.symm named_), Others.put_entry_other (Ne.symm namedR)]
    exact absent
  have stores := keeps_iff_stores.mp keeps
  have gone : w.objects .temporary = none := by
    have gone := stores.absent vacant
    rwa [Others.put_object_other (Ne.symm named_), Others.put_object_other (Ne.symm namedR)] at gone
  unfold swapHelperTrivial
  refine Spec.after keeps.object ?_
  refine Spec.after keepsR.object ?_
  refine Spec.after (assert_returned (by rw [left, right]; rfl)) ?_
  refine Spec.after keeps.readAll ?_
  let ended : Unit → BufferMemory t → Prop := fun _ m' =>
    ∃ o' q' p, Keeps ((w.put r q' list).put b o' other) .temporary p list m'
  refine @withTemporary_spec _ _ _ _ _ _ (fun _ => False) _ ended _
    (rangeConstruct_spec stores vacant false list) ?_ ?_ ?_
  · rintro m₁ ⟨p, keeps₁⟩
    have keeps₂ := keeps₁.turn (Ne.symm named_)
    rw [Others.put_comm namedR] at keeps₂
    refine (exchangeBytes_spec trivial clean apart named_ namedR keeps₂ left right).mono ?_
      fun _ => id
    rintro _ m₂ ⟨o', q', keeps₃⟩
    rw [Others.put_comm (Ne.symm namedR)] at keeps₃
    exact ⟨o', q', p, keeps₃.turn named_⟩
  · rintro _ m₂ ⟨o', q', p, keeps₂⟩
    refine (destruct_spec keeps₂).mono (fun _ m₃ stores₃ => ⟨o', q', ?_⟩) fun _ => id
    rw [keeps_iff_stores]
    have object : ((w.put r q' list).put b o' other).objects .temporary = none := by
      rw [Others.put_object_other (Ne.symm named_), Others.put_object_other (Ne.symm namedR)]
      exact gone
    have entry : ((w.put r q' list).put b o' other).lists .temporary = none := by
      rw [Others.put_entry_other (Ne.symm named_), Others.put_entry_other (Ne.symm namedR)]
      exact absent
    rwa [Others.drop_absent object entry] at stores₃
  · intro m₂ impossible
    exact impossible.elim

theorem swapHelperTrivial_self (trivial : t.traits.trivialAssign = true)
    (named_ : b ≠ .temporary) (absent : w.lists .temporary = none) (keeps : Keeps w b o list m)
    (left : o.isOnStack t = true) :
    Spec (swapHelperTrivial b b) m (fun _ m' => Keeps w b o list m') fun _ => w.MayThrow := by
  have vacant : (w.put b o list).lists .temporary = none := by
    rw [Others.put_entry_other (Ne.symm named_)]
    exact absent
  have stores := keeps_iff_stores.mp keeps
  have gone : (w.put b o list).objects .temporary = none := stores.absent vacant
  unfold swapHelperTrivial
  refine Spec.after keeps.object ?_
  refine Spec.after keeps.object ?_
  refine Spec.after (assert_returned (by rw [left]; rfl)) ?_
  refine Spec.after keeps.readAll ?_
  let ended : Unit → BufferMemory t → Prop := fun _ m' =>
    ∃ p, Keeps (w.put b o list) .temporary p list m'
  refine @withTemporary_spec _ _ _ _ _ _ (fun _ => False) _ ended _
    (rangeConstruct_spec stores vacant false list) ?_ ?_ ?_
  · rintro m₁ ⟨p, keeps₁⟩
    have same : ∀ m', Keeps (w.put .temporary p list) b o list m' →
        Spec (assignImpl o.buffer 0 list) m'
          (fun _ m'' => Keeps (w.put .temporary p list) b o list m'') fun _ => False := by
      rintro m' ⟨l, storage, keeping⟩
      have live := keeping.housed.live
      rw [keeping.housed.buffer, assignImpl, if_pos trivial]
      have within : 0 + list.length ≤ (l.live storage).length := by
        rw [live]
        omega
      refine (memcpyAssign_spec keeping.shows within).mono (fun _ m'' shows => ?_) fun _ => id
      rw [live, overwrite_whole rfl] at shows
      exact keeping.rewrite rfl shows
    have keeps₂ := keeps₁.turn (Ne.symm named_)
    refine Spec.after keeps₂.readAll ?_
    refine (same m₁ keeps₂).bind (fun _ m₃ keeps₃ => ?_) fun _ => id
    have keepsT := keeps₃.turn named_
    refine Spec.after keepsT.object ?_
    refine Spec.after keepsT.readAll ?_
    refine (same m₃ keeps₃).bind (fun _ m₄ keeps₄ => ?_) fun _ => id
    refine (setObject_same keeps₄).bind (fun _ m₅ keeps₅ => ?_) fun _ => id
    refine (setObject_same keeps₅).mono (fun _ m₆ keeps₆ => ?_) fun _ => id
    exact ⟨p, keeps₆.turn named_⟩
  · rintro _ m₂ ⟨p, keeps₂⟩
    refine (destruct_spec keeps₂).mono (fun _ m₃ stores₃ => ?_) fun _ => id
    rw [Others.drop_absent gone vacant] at stores₃
    exact keeps_iff_stores.mpr stores₃
  · intro m₂ impossible
    exact impossible.elim

/-! ### Swapping -/

theorem swap_self (named_ : b ≠ .temporary) (absent : w.lists .temporary = none)
    (keeps : Keeps w b o list m) :
    Spec (swap b b) m (fun _ m' => Keeps w b o list m') fun _ => w.MayThrow := by
  unfold swap
  refine Spec.after keeps.object ?_
  refine Spec.after keeps.object ?_
  refine Spec.bind (?_ : Spec _ m (fun _ m' => Keeps w b o list m') _)
    (fun _ m₁ keeps₁ => ?_) fun _ => id
  · cases stack : o.isOnStack t with
    | false =>
        refine (setObject_same keeps).bind (fun _ m₁ keeps₁ => ?_) fun _ => id
        exact setObject_same keeps₁
    | true =>
        simp only [Bool.not_true, Bool.and_self, Bool.false_eq_true, if_false, if_true]
        split
        · rename_i trivial
          exact swapHelperTrivial_self trivial named_ absent keeps stack
        · exact swapHelper_self keeps stack
  · refine keeps₁.assertValid_spec.bind (fun _ m₂ keeps₂ => ?_) fun _ => id
    exact keeps₂.assertValid_spec

theorem swap_spec (lawful : t.traits.trivialAssign = true → t.traits.trivialDestructor = true)
    (apart : b ≠ r) (named_ : b ≠ .temporary) (namedR : r ≠ .temporary)
    (absent : w.lists .temporary = none) (keeps : Keeps (w.put r q other) b o list m) :
    Spec (swap b r) m (fun _ m' => ∃ o' q', Keeps (w.put r q' list) b o' other m')
      fun _ => w.MayThrow := by
  have keepsR := keeps.turn apart
  unfold swap
  refine Spec.after keeps.object ?_
  refine Spec.after keepsR.object ?_
  refine Spec.bind (?_ : Spec _ m
    (fun _ m' => ∃ o' q', Keeps (w.put r q' list) b o' other m') _) ?_ fun _ => id
  · cases left : o.isOnStack t with
    | false =>
        cases right : q.isOnStack t with
        | false => exact swapOnHeap_spec apart keeps left right
        | true =>
            refine (swapOneOnStack_spec (Ne.symm apart) keepsR right left).mono ?_ fun _ => id
            rintro _ m₁ ⟨q', o', keeps₁⟩
            exact ⟨o', q', keeps₁.turn (Ne.symm apart)⟩
    | true =>
        cases right : q.isOnStack t with
        | false => exact swapOneOnStack_spec apart keeps left right
        | true =>
            simp only [Bool.not_true, Bool.and_self, Bool.false_eq_true, if_false, if_true]
            split
            · rename_i trivial
              exact swapHelperTrivial_spec trivial (lawful trivial) apart named_ namedR absent
                keeps left right
            · exact swapHelper_spec apart keeps left right
  · rintro _ m₁ ⟨o', q', keeps₁⟩
    refine keeps₁.assertValid_spec.bind (fun _ m₂ keeps₂ => ?_) fun _ => id
    refine (keeps₂.turn apart).assertValid_spec.mono (fun _ m₃ keeps₃ => ?_) fun _ => id
    exact ⟨o', q', keeps₃.turn (Ne.symm apart)⟩

end AutoBuffer

end Signals2
