/-
Insertion, in place and through a local buffer.  In place the elements behind the position
are moved to the right by `std::copy`, from the front.
-/

import Signals2.AutoBufferExchange

namespace Signals2

open FalliblePrograms FalliblePrograms.Program ForwardCopies AutoBuffer

variable {t : BufferTemplate} {w : Others t} {b : BufferName} {o : AutoBuffer}
variable {list values suffix shifted : List t.T} {m m' : BufferMemory t} {n before : Nat}

/-- What `std::copy` makes of the elements behind the position. -/
def Shifted (t : BufferTemplate) (n : Nat) (suffix shifted : List t.T) : Prop :=
  if t.traits.triviallyCopyable then shifted = suffix else Rounds n suffix shifted

/-- The elements behind the position come through a shift by `n`. -/
def Survives (t : BufferTemplate) (n : Nat) (suffix : List t.T) : Prop :=
  t.traits.triviallyCopyable = true ∨ Repeats n suffix

theorem Shifted.eq_iff (moved : Shifted t n suffix shifted) :
    shifted = suffix ↔ Survives t n suffix := by
  unfold Shifted at moved
  unfold Survives
  split at moved
  · rename_i trivial
    exact ⟨fun _ => .inl trivial, fun _ => moved⟩
  · rename_i trivial
    rw [moved.eq_iff]
    exact ⟨.inr, fun survives => survives.resolve_left trivial⟩

/-- Elements that have been shifted by one place once are shifted in vain from then on. -/
theorem Shifted.again (moved : Shifted t 1 suffix shifted) (lost : ¬ Survives t 1 suffix) :
    shifted ≠ suffix ∧ Survives t 1 shifted := by
  refine ⟨fun same => lost (moved.eq_iff.mp same), .inr ?_⟩
  unfold Shifted at moved
  rw [if_neg fun trivial => lost (.inl trivial)] at moved
  exact moved.constant

namespace AutoBuffer

/-! ### In place -/

theorem growTrivially_spec (keeps : Keeps w b o list m) (room : list.length + n ≤ o.capacity)
    {throws : BufferMemory t → Prop} :
    Spec (growTrivially b n) m
      (fun _ m' => ∃ grown, grown.length = n ∧
        Keeps w b { o with size := o.size + n } (list ++ grown) m') throws := by
  unfold growTrivially
  refine Spec.after keeps.object ?_
  refine Spec.after (assert_returned (countFits keeps room)) ?_
  obtain ⟨l, storage, keeping⟩ := keeps
  have length : (List.replicate n t.indeterminate).length = n := List.length_replicate
  have fits : list.length + (List.replicate n t.indeterminate).length ≤ o.capacity := by
    rw [length]
    exact room
  refine (memcpyBack_spec keeping.shows keeping.housed fits).bind (fun _ m₁ shows₁ => ?_)
    fun _ => id
  refine (setSize_spec keeping shows₁ ?_ ?_).mono (fun _ m₂ keeps₂ => ⟨_, length, keeps₂⟩)
    fun _ => id
  · rw [List.length_append]
    exact fits
  · rw [List.length_append, length, keeping.housed.size]

theorem growBack_spec (keeps : Keeps w b o list m) (room : list.length + n ≤ o.capacity) :
    Spec (growBack b n) m
      (fun _ m' => ∃ grown, grown.length = n ∧
        Keeps w b { o with size := o.size + n } (list ++ grown) m') (Leaves w b) := by
  unfold growBack
  split
  · exact growTrivially_spec keeps room
  · exact (uncheckedPushBackN_spec keeps room).mono
      (fun _ m₁ keeps₁ => ⟨_, grownElements_length, keeps₁⟩) fun _ => id

theorem growBackOne_spec (keeps : Keeps w b o list m) (room : list.length < o.capacity) :
    Spec (growBackOne b) m
      (fun _ m' => ∃ grown, grown.length = 1 ∧
        Keeps w b { o with size := o.size + 1 } (list ++ grown) m') (Leaves w b) := by
  unfold growBackOne
  split
  · exact growTrivially_spec keeps room
  · exact (uncheckedPushBackDefault_spec keeps room).mono (fun _ m₁ keeps₁ => ⟨_, rfl, keeps₁⟩)
      fun m' thrown => ⟨thrown.1, o, list, thrown.2⟩

/-- The gap is opened and filled. -/
theorem placeInside_spec {fill : Buffered t Unit} {grown : List t.T}
    (keeps : Keeps w b o (list ++ grown) m) (inside : before ≤ list.length)
    (size : grown.length = values.length)
    (fills : ∀ moved m', Keeps w b o moved m' → before + values.length ≤ moved.length →
      Spec fill m' (fun _ m'' => Keeps w b o (overwrite moved before values) m'') (Leaves w b)) :
    Spec (do
        openGap b before values.length
        fill) m
      (fun _ m' => ∃ shifted, Shifted t values.length (list.drop before) shifted ∧
        Keeps w b o (list.take before ++ values ++ shifted) m') (Leaves w b) := by
  have total : (list ++ grown).length = list.length + values.length := by
    rw [List.length_append, size]
  have count : o.size = list.length + values.length := keeps.size.trans total
  have rest : o.size - values.length - before = list.length - before := by omega
  have enough : decide (values.length ≤ o.size) = true := decide_eq_true (by omega)
  have opened : Spec (openGap b before values.length) m
      (fun _ m' => Keeps w b o (copied t (list ++ grown) before (list.length - before)
        (before + values.length)) m') (Leaves w b) := by
    unfold openGap
    refine Spec.after keeps.object ?_
    refine Spec.after (assert_returned enough) ?_
    rw [rest]
    exact stdCopy_keeps keeps (by omega) (by omega)
  refine opened.bind (fun _ m₁ keeps₁ => ?_) fun _ => id
  have length : (copied t (list ++ grown) before (list.length - before)
      (before + values.length)).length = (list ++ grown).length := copied_length (by omega)
  refine (fills _ m₁ keeps₁ (by omega)).mono (fun _ m₂ keeps₂ => ?_) fun _ => id
  unfold copied at keeps₂
  unfold Shifted
  split at keeps₂
  · rename_i trivial
    rw [blockMove_gap inside size] at keeps₂
    exact ⟨_, by rw [if_pos trivial], keeps₂⟩
  · rename_i trivial
    obtain ⟨copies, same, rounds⟩ := forwardCopy_gap inside size
    rw [same] at keeps₂
    exact ⟨copies, by rw [if_neg trivial]; exact rounds, keeps₂⟩

theorem shifted_nil : Shifted t n ([] : List t.T) [] := by
  unfold Shifted
  split
  · rfl
  · exact ⟨rfl, fun j inside => absurd inside (Nat.not_lt_zero j)⟩

theorem insert_inPlace (keeps : Keeps w b o list m) (inside : before ≤ list.length)
    (room : list.length < o.capacity) (x : t.T) :
    Spec (insert b before x) m
      (fun position m' => position = (o.buffer, before) ∧
        ∃ shifted, Shifted t 1 (list.drop before) shifted ∧
          Keeps w b { o with size := o.size + 1 } (list.take before ++ [x] ++ shifted) m')
      (Leaves w b) := by
  have size := keeps.size
  unfold insert
  refine Spec.after keeps.object ?_
  rw [if_pos (by omega)]
  refine Spec.bind (?_ : Spec _ m (fun _ m' => ∃ shifted, Shifted t 1 (list.drop before) shifted ∧
    Keeps w b { o with size := o.size + 1 } (list.take before ++ [x] ++ shifted) m') _)
    (fun _ m₁ placed => ⟨rfl, placed⟩) fun _ => id
  split
  · refine (growBackOne_spec keeps room).bind ?_ fun _ => id
    rintro _ m₁ ⟨grown, one, keeps₁⟩
    have same : grown.length = [x].length := one
    refine placeInside_spec keeps₁ inside same ?_
    intro moved m₂ keeps₂ within
    refine (assignEach_keeps keeps₂ within).bind (fun _ m₃ keeps₃ => ?_) fun _ => id
    exact keeps₃.assertValid_spec
  · rename_i back
    have last : before = list.length := by
      rw [← size]
      exact not_not.mp back
    subst last
    rw [List.take_length, List.drop_length]
    refine (uncheckedPushBack_spec keeps room x).mono (fun _ m₁ keeps₁ => ?_)
      fun m' thrown => ⟨thrown.1, o, list, thrown.2⟩
    refine ⟨[], shifted_nil, ?_⟩
    rw [List.append_nil]
    exact keeps₁

theorem insertN_inPlace (keeps : Keeps w b o list m) (inside : before ≤ list.length)
    (room : list.length + n ≤ o.capacity) (x : t.T) :
    Spec (insertN b before n x) m
      (fun _ m' => ∃ shifted, Shifted t n (list.drop before) shifted ∧
        Keeps w b { o with size := o.size + n }
          (list.take before ++ List.replicate n x ++ shifted) m') (Leaves w b) := by
  have length : (List.replicate n x).length = n := List.length_replicate
  unfold insertN
  refine Spec.after keeps.object ?_
  rw [if_pos (of_decide_eq_true (countFits keeps room))]
  refine (growBack_spec keeps room).bind ?_ fun _ => id
  rintro _ m₁ ⟨grown, size, keeps₁⟩
  have same : grown.length = (List.replicate n x).length := size.trans length.symm
  have placed : Spec (do
      openGap b before (List.replicate n x).length
      assignEach o.buffer before (List.replicate n x)
      assertValid b) m₁ _ _ := placeInside_spec keeps₁ inside same fun moved m₂ keeps₂ within =>
        (assignEach_keeps keeps₂ within).bind (fun _ m₃ keeps₃ => keeps₃.assertValid_spec)
          fun _ => id
  rw [length] at placed
  exact placed

theorem insertRange_inPlace (keeps : Keeps w b o list m) (inside : before ≤ list.length)
    (pointers : Bool) (room : list.length + values.length ≤ o.capacity) :
    Spec (insertRange b before pointers values) m
      (fun _ m' => ∃ shifted, Shifted t values.length (list.drop before) shifted ∧
        Keeps w b { o with size := o.size + values.length }
          (list.take before ++ values ++ shifted) m') (Leaves w b) := by
  have size := keeps.size
  unfold insertRange
  refine Spec.after keeps.object ?_
  rw [if_pos (by omega)]
  refine Spec.bind (?_ : Spec _ m (fun _ m' => ∃ shifted,
    Shifted t values.length (list.drop before) shifted ∧
      Keeps w b { o with size := o.size + values.length }
        (list.take before ++ values ++ shifted) m') _) ?_ fun _ => id
  · split
    · refine (growBack_spec keeps room).bind ?_ fun _ => id
      rintro _ m₁ ⟨grown, same, keeps₁⟩
      refine placeInside_spec keeps₁ inside same ?_
      intro moved m₂ keeps₂ within
      exact assignImpl_keeps keeps₂ within
    · rename_i back
      have last : before = list.length := by
        rw [← size]
        exact not_not.mp back
      subst last
      rw [List.take_length, List.drop_length]
      refine (uncheckedPushBackRange_spec keeps room pointers).mono (fun _ m₁ keeps₁ => ?_)
        fun m' thrown => ⟨thrown.1, o, list, thrown.2⟩
      refine ⟨[], shifted_nil, ?_⟩
      rw [List.append_nil]
      exact keeps₁
  · rintro _ m₁ ⟨shifted, moved, keeps₁⟩
    exact keeps₁.assertValid_spec.mono (fun _ m₂ keeps₂ => ⟨shifted, moved, keeps₂⟩) fun _ => id

/-! ### A count that `size_type` does not hold -/

section Overrun

variable {l : Layout t} {storage : Storage} {start : Nat}

/-- Where there is no room the construction of an element goes wrong. -/
theorem constructElement_outside (shows : Shows m l) (outside : l.room storage ≤ start) (v : t.T) :
    constructElement (some storage) start v m = .failed .outOfRange := by
  rw [← shows.room] at outside
  simp only [constructElement, if_pos outside]

theorem memcpyConstruct_overrun (shows : Shows m l) (next : start = (l.live storage).length)
    (more : l.room storage < start + values.length) :
    ∃ f, memcpyConstruct (some storage) start values m = .failed f := by
  induction values generalizing m l start with
  | nil =>
      have fits := shows.fits storage
      rw [List.length_nil] at more
      omega
  | cons v rest ih =>
      rw [List.length_cons] at more
      by_cases inside : start < l.room storage
      · have made : Spec (constructElement (some storage) start v) m _ fun _ => False :=
          constructElement_spec shows next inside
        obtain ⟨_, m₁, outcome, shows₁⟩ := made.returned
        have next₁ : start + 1 =
            ((l.setLive storage (l.live storage ++ [v])).live storage).length := by
          rw [Layout.setLive_live, List.length_append, List.length_singleton, next]
        rw [memcpyConstruct, bind_of_returned outcome]
        exact ih shows₁ next₁ (by rw [Layout.setLive_room]; omega)
      · exact ⟨_, bind_of_failed (constructElement_outside shows (Nat.not_lt.mp inside) v)⟩

theorem uninitializedCopy_overrun (shows : Shows m l) (quiet : ¬ l.MayThrow)
    (next : start = (l.live storage).length) (more : l.room storage < start + values.length) :
    ∃ f, uninitializedCopy (some storage) start values m = .failed f := by
  induction values generalizing m l start with
  | nil =>
      have fits := shows.fits storage
      rw [List.length_nil] at more
      omega
  | cons v rest ih =>
      rw [List.length_cons] at more
      have calm : Spec copyMayThrow m (fun _ m' => Shows m' l) fun _ => False :=
        (copyMayThrow_spec shows).mono (fun _ _ => id) fun _ thrown => quiet thrown.2.1
      obtain ⟨_, m₁, outcome₁, shows₁⟩ := calm.returned
      rw [uninitializedCopy, bind_of_returned outcome₁]
      by_cases inside : start < l.room storage
      · have made : Spec (constructElement (some storage) start v) m₁ _ fun _ => False :=
          constructElement_spec shows₁ next inside
        obtain ⟨_, m₂, outcome₂, shows₂⟩ := made.returned
        have next₂ : start + 1 =
            ((l.setLive storage (l.live storage ++ [v])).live storage).length := by
          rw [Layout.setLive_live, List.length_append, List.length_singleton, next]
        obtain ⟨f, failed⟩ := ih shows₂ quiet next₂ (by rw [Layout.setLive_room]; omega)
        rw [bind_of_returned outcome₂]
        exact ⟨f, onThrow_of_failed failed⟩
      · exact ⟨_, bind_of_failed (constructElement_outside shows₁ (Nat.not_lt.mp inside) v)⟩

end Overrun

theorem growTrivially_overrun (keeps : Keeps w b o list m) (more : o.capacity < list.length + n)
    (wrapped : (o.size + n) % sizeLimit ≤ o.capacity) : ∃ f, growTrivially b n m = .failed f := by
  have object := keeps.object
  obtain ⟨l, storage, keeping⟩ := keeps
  have behind : o.size = (l.live storage).length := by
    rw [keeping.housed.live]
    exact keeping.housed.size
  have length : (List.replicate n t.indeterminate).length = n := List.length_replicate
  have outside : l.room storage < o.size + (List.replicate n t.indeterminate).length := by
    rw [keeping.housed.room_eq, length, keeping.housed.size]
    exact more
  obtain ⟨f, failed⟩ := memcpyConstruct_overrun keeping.shows behind outside
  rw [← keeping.housed.buffer] at failed
  unfold growTrivially
  rw [bind_of_returned object, bind_of_returned (assert_returned (decide_eq_true wrapped))]
  exact ⟨f, bind_of_failed failed⟩

/-- A full buffer asserts that it is not. -/
theorem pushDefaults_overrun (keeps : Keeps w b o list m) (quiet : ¬ w.MayThrow)
    (more : o.capacity < list.length + n) :
    repeatUpTo (fun _ => uncheckedPushBackDefault b) n m = .failed .assertion := by
  have fits := keeps.fits
  have room : list.length + (o.capacity - list.length) ≤ o.capacity := by omega
  have filled : Spec (repeatUpTo (fun _ => uncheckedPushBackDefault b) (o.capacity - list.length))
      m _ fun _ => False :=
    (pushDefaults_spec keeps room).mono (fun _ _ => id) fun _ leaves => quiet leaves.1
  obtain ⟨_, m₁, earlier, keeps₁⟩ := filled.returned
  have full_ : (!({ o with size := o.size + (o.capacity - list.length) } : AutoBuffer).full) =
      false := by
    have size := keeps.size
    have count : o.size + (o.capacity - list.length) = o.capacity := by omega
    simp [full, count]
  have failed : uncheckedPushBackDefault b m₁ = .failed .assertion := by
    unfold uncheckedPushBackDefault
    rw [bind_of_returned keeps₁.object, full_]
    rfl
  have below : o.capacity - list.length < n := by omega
  exact repeatUpTo_of_failed below earlier failed

theorem growBack_overrun (keeps : Keeps w b o list m) (quiet : ¬ w.MayThrow)
    (more : o.capacity < list.length + n) (wrapped : (o.size + n) % sizeLimit ≤ o.capacity) :
    ∃ f, growBack b n m = .failed f := by
  have object := keeps.object
  unfold growBack
  split
  · exact growTrivially_overrun keeps more wrapped
  · unfold uncheckedPushBackN
    rw [bind_of_returned object, bind_of_returned (assert_returned (decide_eq_true wrapped))]
    split
    · obtain ⟨l, storage, keeping⟩ := keeps
      have calm : Spec constructorMayThrow m (fun _ m' => Shows m' l) fun _ => False :=
        (constructorMayThrow_spec keeping.shows).mono (fun _ _ => id) fun _ thrown =>
          quiet (keeping.mayThrow thrown.1)
      obtain ⟨_, m₁, outcome, shows₁⟩ := calm.returned
      have behind : o.size = (l.live storage).length := by
        rw [keeping.housed.live]
        exact keeping.housed.size
      have length : (List.replicate n t.initial).length = n := List.length_replicate
      have outside : l.room storage < o.size + (List.replicate n t.initial).length := by
        rw [keeping.housed.room_eq, length, keeping.housed.size]
        exact more
      have calm₁ : ¬ l.MayThrow := fun may => quiet (keeping.mayThrow may)
      obtain ⟨f, failed⟩ := uninitializedCopy_overrun shows₁ calm₁ behind outside
      rw [← keeping.housed.buffer] at failed
      rw [bind_of_returned outcome]
      exact ⟨f, bind_of_failed failed⟩
    · exact ⟨_, pushDefaults_overrun keeps quiet more⟩

/-- The sum is wrapped around and found small enough; then there is no room. -/
theorem insertN_overrun (keeps : Keeps w b o list m) (quiet : ¬ w.MayThrow) (small : n < sizeLimit)
    (more : o.capacity < list.length + n) (large : sizeLimit ≤ list.length + n) (before : Nat)
    (x : t.T) : ∃ f, insertN b before n x m = .failed f := by
  have size := keeps.size
  have fits := keeps.fits
  have wrapped : (o.size + n) % sizeLimit ≤ o.capacity := by
    rw [size]
    by_cases twice : list.length < sizeLimit
    · rw [Nat.mod_eq_sub_mod large, Nat.mod_eq_of_lt (by omega)]
      omega
    · exact Nat.le_trans (Nat.le_of_lt (Nat.mod_lt _ (by decide))) (by omega)
  obtain ⟨f, failed⟩ := growBack_overrun keeps quiet more wrapped
  unfold insertN
  rw [bind_of_returned keeps.object, if_pos wrapped]
  exact ⟨f, bind_of_failed failed⟩

/-! ### Through a local buffer -/

/-- The local buffer's block becomes the buffer's. -/
theorem oneSidedSwap_spec {p : AutoBuffer} (named_ : b ≠ .temporary)
    (keeps : Keeps (w.put b o list) .temporary p values m) (heap : p.isOnStack t = false)
    (more : list.length + 1 ≤ values.length) {throws : BufferMemory t → Prop} :
    Spec (oneSidedSwap b .temporary) m
      (fun _ m' => Emptied (w.put b p values) .temporary { p with buffer := none } m') throws := by
  obtain ⟨l, storage, storage', pairing⟩ :=
    Keeps.pairing named_ (keeps.turn (Ne.symm named_))
  have housed := pairing.housed
  have housedT := pairing.housedR
  have distinct := pairing.distinct named_
  have outside : storage' ≠ .internal .temporary := by
    intro inside
    rw [housedT.onStack.mpr inside] at heap
    cases heap
  unfold oneSidedSwap
  refine Spec.after (object_eq pairing.shows housedT.object) ?_
  refine Spec.after (assert_returned (by rw [heap]; rfl)) ?_
  refine (autoBufferDestroy_spec pairing.shows housed).bind (fun _ m₁ shows₁ => ?_) fun _ => id
  have object₁ : ((l.setLive storage []).release storage).objects b = some o := by
    rw [Layout.release_objects]
    exact housed.object
  refine Spec.after (object_eq shows₁ object₁) ?_
  have larger : decide (o.size + 1 ≤ p.size) = true := by
    rw [housed.size, housedT.size]
    exact decide_eq_true more
  refine Spec.after (assert_returned larger) ?_
  refine (setObject_spec shows₁ p).bind (fun _ m₂ shows₂ => ?_) fun _ => id
  refine (setObject_spec shows₂ { p with buffer := none }).bind (fun _ m₃ shows₃ => ?_) fun _ => id
  -- the layout without the local buffer
  let left := (((l.setLive storage []).release storage).setObject b (some p)).setObject .temporary
    none
  have shown : Shows m₃ (left.setObject .temporary (some { p with buffer := none })) := by
    have same : left.setObject .temporary (some { p with buffer := none }) =
        (((l.setLive storage []).release storage).setObject b (some p)).setObject .temporary
          (some { p with buffer := none }) := by
      simp only [left, Layout.setObject, Function.update_idem]
    rw [same]
    exact shows₃
  have after : left.Housed b p storage' values :=
    { object := by simp [left, Layout.setObject, named_]
      buffer := housedT.buffer
      size := housedT.size
      live := by
        simp only [left]
        rw [Layout.setObject_live, Layout.setObject_live, Layout.release_live,
          Layout.setLive_live_other (Ne.symm distinct)]
        exact housedT.live
      fits := housedT.fits
      least := housedT.least
      holds := by
        have holds := housedT.holds
        cases storage' with
        | internal x =>
            rw [holds.1] at outside
            exact absurd rfl outside
        | block k =>
            refine ⟨holds.1, ?_⟩
            simp only [left]
            rw [Layout.setObject_blocks, Layout.setObject_blocks,
              Layout.release_blocks_other distinct]
            exact holds.2 }
  have accounted : left.Accounted
      (Function.update ((w.put b p values).lists) .temporary none) := by
    have handed := pairing.accounted.handOver named_ housed housedT after
      (by simp [left, Layout.setObject]) ?_ ?_ ?_ ?_
    · rwa [Function.update_idem, Function.update_comm (Ne.symm named_), Function.update_idem]
        at handed
    · intro x different different'
      simp [left, Layout.setObject, different, different']
    · intro s untouched
      rw [not_or] at untouched
      constructor
      · simp only [left]
        rw [Layout.setObject_live, Layout.setObject_live, Layout.release_live,
          Layout.setLive_live_other untouched.1]
      · rintro k rfl
        simp only [left]
        rw [Layout.setObject_blocks, Layout.setObject_blocks,
          Layout.release_blocks_other (Ne.symm untouched.1), Layout.setLive_blocks]
    · simp only [left]
      constructor
      · rw [Layout.setObject_live, Layout.setObject_live, Layout.release_live,
          Layout.setLive_live]
      · rintro k rfl
        exact Function.update_self _ _ _
    · have count : left.count = l.count + ([] : List t.T).length - (l.live storage).length := by
        simp [left, Layout.setObject, Layout.setLive]
      rw [count, housed.live]
      simp
  have others : ∀ r, r ≠ .temporary → left.objects r = (w.put b p values).objects r := by
    intro r different
    by_cases mine : r = b
    · subst mine
      rw [after.object, Others.put_object]
    · rw [Others.put_object_other mine, ← pairing.others r mine different]
      simp [left, Layout.setObject, different, mine]
  have throws : left.throws = w.throws := by
    rw [← pairing.throws]
    simp [left, Layout.setObject, Layout.setLive]
  have null : ({ p with buffer := none } : AutoBuffer).isValid t .temporary = true := rfl
  have there : (left.setObject .temporary (some { p with buffer := none })).objects .temporary =
      some { p with buffer := none } := by simp [Layout.setObject]
  unfold Spec
  rw [assertValid_eq shown there null]
  exact ⟨rfl, left, shown, accounted, others, throws⟩

/-- The object with the block of the local buffer. -/
def rebuilt (t : BufferTemplate) (o : AutoBuffer) (p : Pointer) (n : Nat) : AutoBuffer :=
  { capacity := max (t.newCapacity o.capacity) n
    buffer := p
    size := n }

/-- What is pushed between the two parts is where it belongs, or nothing has changed. -/
theorem rebuild_spec {Value : Type} {push : Buffered t Value} {given : AutoBuffer → Value → Prop}
    (named_ : b ≠ .temporary) (absent : w.lists .temporary = none) (keeps : Keeps w b o list m)
    (inside : before ≤ list.length) (size : n = list.length + values.length)
    (more : o.capacity < n)
    (pushes : ∀ p m', Keeps (w.put b o list) .temporary p (list.take before) m' →
      list.length + values.length ≤ p.capacity →
      Spec push m'
        (fun value m'' => given p value ∧ Keeps (w.put b o list) .temporary
          { p with size := p.size + values.length } (list.take before ++ values) m'')
        fun m'' => w.MayThrow ∧ Keeps (w.put b o list) .temporary p (list.take before) m'') :
    Spec (rebuild b before n push) m
      (fun value m' => ∃ p, given p value ∧ p.size = before ∧
        Keeps w b (rebuilt t o p.buffer n) (list.take before ++ values ++ list.drop before) m')
      fun m' => w.MayThrow ∧ Keeps w b o list m' := by
  have fits := keeps.fits
  have least := keeps.least
  have vacant : (w.put b o list).lists .temporary = none := by
    rw [Others.put_entry_other (Ne.symm named_)]
    exact absent
  have stores := keeps_iff_stores.mp keeps
  unfold rebuild
  refine Spec.after (newCapacityImpl_spec keeps more) ?_
  have large : max (max (t.newCapacity o.capacity) n) t.N = max (t.newCapacity o.capacity) n := by
    omega
  have made := capacityConstruct_spec stores vacant (max (t.newCapacity o.capacity) n)
  rw [large] at made
  have gone : (w.put b o list).objects .temporary = none := stores.absent vacant
  let full := list.take before ++ values ++ list.drop before
  have length : full.length = n := by
    simp only [full, List.length_append, List.length_take, List.length_drop]
    omega
  let ended : Value → BufferMemory t → Prop := fun value m' => ∃ p, given p value ∧
    p.size = before ∧ Emptied (w.put b (rebuilt t o p.buffer n) full) .temporary
      { rebuilt t o p.buffer n with buffer := none } m'
  let left : BufferMemory t → Prop := fun m' =>
    w.MayThrow ∧ ∃ p front, Keeps (w.put b o list) .temporary p front m'
  have back : ∀ m', Stores (w.put b o list) m' → Keeps w b o list m' :=
    fun m' stores' => keeps_iff_stores.mpr stores'
  refine @withTemporary_spec _ _ _ _ _ _ left _ ended _
    (made.mono (fun _ _ => id) fun m' thrown => ⟨thrown.1, back m' thrown.2⟩) ?_ ?_ ?_
  · rintro m₁ ⟨p, keeps₁⟩
    have mine₁ := keeps₁.turn (Ne.symm named_)
    refine Spec.after mine₁.object ?_
    have frontFits : 0 + before ≤ list.length := by omega
    refine Spec.after (mine₁.readRange frontFits) ?_
    rw [List.drop_zero]
    have front : (list.take before).length = before := by
      rw [List.length_take]
      omega
    have room₁ : ([] : List t.T).length + (list.take before).length ≤
        max (t.newCapacity o.capacity) n := by
      rw [front, List.length_nil]
      omega
    refine (uncheckedPushBackRange_spec keeps₁ room₁ true).bind (fun _ m₂ keeps₂ => ?_)
      fun m' thrown => ⟨thrown.1, _, _, thrown.2⟩
    rw [List.nil_append, front, Nat.zero_add] at keeps₂
    have roomP : list.length + values.length ≤ max (t.newCapacity o.capacity) n := by omega
    refine (pushes _ m₂ keeps₂ roomP).bind ?_ fun m' thrown => ⟨thrown.1, _, _, thrown.2⟩
    rintro value m₃ ⟨same, keeps₃⟩
    have mine₃ := keeps₃.turn (Ne.symm named_)
    have backFits : before + (o.size - before) ≤ list.length := by
      rw [keeps.size]
      omega
    refine Spec.after (mine₃.readRange backFits) ?_
    have all : (list.drop before).take (o.size - before) = list.drop before := by
      rw [List.take_of_length_le]
      rw [List.length_drop, keeps.size]
    rw [all]
    have room₃ : (list.take before ++ values).length + (list.drop before).length ≤
        max (t.newCapacity o.capacity) n := by
      rw [List.length_append, front, List.length_drop]
      omega
    refine (uncheckedPushBackRange_spec keeps₃ room₃ true).bind (fun _ m₄ keeps₄ => ?_)
      fun m' thrown => ⟨thrown.1, _, _, thrown.2⟩
    have count : before + values.length + (list.drop before).length = n := by
      rw [List.length_drop]
      omega
    rw [count] at keeps₄
    have heap : (rebuilt t o p n).isOnStack t = false := by
      refine decide_eq_false ?_
      change ¬ max (t.newCapacity o.capacity) n ≤ t.N
      omega
    have longer : list.length + 1 ≤ full.length := by omega
    refine (oneSidedSwap_spec named_ keeps₄ heap longer).bind (fun _ m₅ emptied => ?_)
      fun _ => id
    have entry : (w.put b (rebuilt t o p n) full).lists b = some full := Others.put_entry
    refine Spec.after (emptied.assertValid_other named_ entry) ?_
    exact ⟨_, same, rfl, emptied⟩
  · rintro value m₂ ⟨p, same, position, emptied⟩
    refine (destruct_emptied emptied).mono (fun _ m₃ stores₃ => ⟨p, same, position, ?_⟩) fun _ => id
    have object : (w.put b (rebuilt t o p.buffer n) full).objects .temporary = none := by
      rw [Others.put_object_other (Ne.symm named_)]
      rwa [Others.put_object_other (Ne.symm named_)] at gone
    have entry : (w.put b (rebuilt t o p.buffer n) full).lists .temporary = none := by
      rw [Others.put_entry_other (Ne.symm named_)]
      exact absent
    rw [Others.drop_absent object entry] at stores₃
    exact keeps_iff_stores.mpr stores₃
  · rintro m₂ ⟨may, p, some_, keeps₂⟩
    refine (destruct_spec keeps₂).mono (fun _ m₃ stores₃ => ⟨may, ?_⟩) fun _ => id
    rw [Others.drop_absent gone vacant] at stores₃
    exact back m₃ stores₃

theorem insert_rebuilt (named_ : b ≠ .temporary) (absent : w.lists .temporary = none)
    (keeps : Keeps w b o list m) (inside : before ≤ list.length) (full_ : list.length = o.capacity)
    (x : t.T) :
    Spec (insert b before x) m
      (fun position m' => ∃ p, position = (p, before) ∧
        Keeps w b (rebuilt t o p (o.size + 1)) (list.take before ++ [x] ++ list.drop before) m')
      fun m' => w.MayThrow ∧ Keeps w b o list m' := by
  have size := keeps.size
  unfold insert
  refine Spec.after keeps.object ?_
  rw [if_neg (by omega)]
  let given : AutoBuffer → Pointer × Nat → Prop := fun p position => position = (p.buffer, p.size)
  have longer : o.size + 1 = list.length + [x].length := by
    rw [size]
    rfl
  refine (@rebuild_spec _ _ _ _ _ [x] _ _ _ _ _ given named_ absent keeps inside longer (by omega)
    ?_).mono ?_ fun _ => id
  · intro p m₁ keeps₁ room
    refine Spec.after keeps₁.object ?_
    have fits : (list.take before).length < p.capacity := by
      rw [List.length_take]
      omega
    refine (uncheckedPushBack_spec keeps₁ fits x).bind (fun _ m₂ keeps₂ => ?_) fun _ => id
    exact ⟨rfl, keeps₂⟩
  · rintro position m₁ ⟨p, same, start, keeps₁⟩
    refine ⟨p.buffer, ?_, keeps₁⟩
    rw [← start]
    exact same

theorem insertN_rebuilt (named_ : b ≠ .temporary) (absent : w.lists .temporary = none)
    (keeps : Keeps w b o list m) (inside : before ≤ list.length)
    (small : list.length + n < sizeLimit) (more : o.capacity < list.length + n) (x : t.T) :
    Spec (insertN b before n x) m
      (fun _ m' => ∃ p, Keeps w b (rebuilt t o p (o.size + n))
        (list.take before ++ List.replicate n x ++ list.drop before) m')
      fun m' => w.MayThrow ∧ Keeps w b o list m' := by
  have size := keeps.size
  have exactly_ : (o.size + n) % sizeLimit = o.size + n := by
    rw [size]
    exact Nat.mod_eq_of_lt small
  unfold insertN
  refine Spec.after keeps.object ?_
  rw [exactly_, if_neg (by omega)]
  have longer : o.size + n = list.length + (List.replicate n x).length := by
    rw [size, List.length_replicate]
  refine (@rebuild_spec _ _ _ _ _ (List.replicate n x) _ _ _ _ _ (fun _ _ => True) named_ absent
    keeps inside longer (by omega) ?_).mono ?_ fun _ => id
  · intro p m₁ keeps₁ room
    refine Spec.after keeps₁.object ?_
    obtain ⟨l, storage, keeping⟩ := keeps₁
    have fits : (list.take before).length + (List.replicate n x).length ≤ p.capacity := by
      rw [List.length_take]
      omega
    refine (fillBack_spec keeping.shows keeping.housed fits).bind (fun _ m₂ shows₂ => ?_)
      fun m' thrown => ⟨keeping.mayThrow thrown.2.1, keeping.shown thrown.2.2⟩
    have length : (List.replicate n x).length = n := List.length_replicate
    rw [length] at fits ⊢
    refine (setSize_spec keeping shows₂ ?_ ?_).mono (fun _ m₃ keeps₃ => ⟨trivial, keeps₃⟩)
      fun _ => id
    · rw [List.length_append, length]
      exact fits
    · rw [List.length_append, length, keeping.housed.size]
  · rintro _ m₁ ⟨p, _, _, keeps₁⟩
    exact ⟨p.buffer, keeps₁⟩

theorem insertRange_rebuilt (named_ : b ≠ .temporary) (absent : w.lists .temporary = none)
    (keeps : Keeps w b o list m) (inside : before ≤ list.length) (pointers : Bool)
    (more : o.capacity < list.length + values.length) :
    Spec (insertRange b before pointers values) m
      (fun _ m' => ∃ p, Keeps w b (rebuilt t o p (o.size + values.length))
        (list.take before ++ values ++ list.drop before) m')
      fun m' => w.MayThrow ∧ Keeps w b o list m' := by
  have size := keeps.size
  unfold insertRange
  refine Spec.after keeps.object ?_
  rw [if_neg (by omega)]
  have longer : o.size + values.length = list.length + values.length := by rw [size]
  refine (@rebuild_spec _ _ _ _ _ values _ _ _ _ _ (fun _ _ => True) named_ absent keeps inside
    longer (by omega) ?_).mono ?_ fun _ => id
  · intro p m₁ keeps₁ room
    have fits : (list.take before).length + values.length ≤ p.capacity := by
      rw [List.length_take]
      omega
    exact (uncheckedPushBackRange_spec keeps₁ fits pointers).mono
      (fun _ m₂ keeps₂ => ⟨trivial, keeps₂⟩) fun _ => id
  · rintro _ m₁ ⟨p, _, _, keeps₁⟩
    exact ⟨p.buffer, keeps₁⟩

/-! ### One after the other -/

/-- Every one of `n` insertions finds the buffer full. -/
def Reallocates (t : BufferTemplate) (capacity size : Nat) : Nat → Prop
  | 0 => True
  | n + 1 => size = capacity ∧
      Reallocates t (max (t.newCapacity capacity) (size + 1)) (size + 1) n

/-- The elements behind the position come through a single insertion. -/
theorem insert_spec (named_ : b ≠ .temporary) (absent : w.lists .temporary = none)
    (keeps : Keeps w b o list m) (inside : before ≤ list.length) (x : t.T) :
    Spec (insert b before x) m
      (fun position m' => ∃ o' shifted, position = (o'.buffer, before) ∧
        Keeps w b o' (list.take before ++ [x] ++ shifted) m' ∧
        (list.length < o.capacity → Shifted t 1 (list.drop before) shifted) ∧
        (list.length = o.capacity → shifted = list.drop before ∧
          o'.capacity = max (t.newCapacity o.capacity) (list.length + 1)))
      (Leaves w b) := by
  have size := keeps.size
  by_cases room : list.length < o.capacity
  · refine (insert_inPlace keeps inside room x).mono ?_ fun _ => id
    rintro position m' ⟨same, shifted, moved, keeps'⟩
    exact ⟨{ o with size := o.size + 1 }, shifted, same, keeps', fun _ => moved,
      fun full_ => absurd room (by omega)⟩
  · have full_ : list.length = o.capacity := Nat.le_antisymm keeps.fits (Nat.not_lt.mp room)
    refine (insert_rebuilt named_ absent keeps inside full_ x).mono ?_
      fun m' thrown => ⟨thrown.1, o, list, thrown.2⟩
    rintro position m' ⟨p, same, keeps'⟩
    refine ⟨rebuilt t o p (o.size + 1), list.drop before, same, keeps',
      fun less => absurd less room, fun _ => ⟨rfl, ?_⟩⟩
    rw [← size]
    rfl

theorem insertInput_spec (named_ : b ≠ .temporary) (absent : w.lists .temporary = none)
    (keeps : Keeps w b o list m) (inside : before ≤ list.length) :
    Spec (insertInput b before values) m
      (fun _ m' => ∃ o' shifted, Keeps w b o' (list.take before ++ values ++ shifted) m' ∧
        (shifted = list.drop before ↔
          Reallocates t o.capacity list.length values.length ∨ Survives t 1 (list.drop before)))
      (Leaves w b) := by
  induction values generalizing m o list before with
  | nil =>
      refine ⟨o, list.drop before, ?_, fun _ => .inl trivial, fun _ => rfl⟩
      rw [List.append_nil, List.take_append_drop]
      exact keeps
  | cons x rest ih =>
      refine (insert_spec named_ absent keeps inside x).bind ?_ fun _ => id
      rintro _ m₁ ⟨o₁, shifted₁, rfl, keeps₁, placed, rebuilt⟩
      have front : (list.take before ++ [x]).length = before + 1 := by
        rw [List.length_append, List.length_take, List.length_singleton]
        omega
      have inside₁ : before + 1 ≤ (list.take before ++ [x] ++ shifted₁).length := by
        rw [List.length_append, front]
        omega
      refine (ih keeps₁ inside₁).mono ?_ fun _ => id
      have taken : (list.take before ++ [x] ++ shifted₁).take (before + 1) =
          list.take before ++ [x] := by rw [← front, List.take_left]
      have dropped : (list.take before ++ [x] ++ shifted₁).drop (before + 1) = shifted₁ := by
        rw [← front, List.drop_left]
      rintro _ m₂ ⟨o₂, shifted, keeps₂, same⟩
      have regroup : list.take before ++ [x] ++ rest ++ shifted =
          list.take before ++ (x :: rest) ++ shifted := by simp
      rw [taken, regroup] at keeps₂
      rw [dropped] at same
      refine ⟨o₂, shifted, keeps₂, ?_⟩
      by_cases room : list.length < o.capacity
      · have moved := placed room
        have never_ : ¬ Reallocates t o.capacity list.length (x :: rest).length := by
          rintro ⟨full_, _⟩
          omega
        by_cases survives : Survives t 1 (list.drop before)
        · rw [moved.eq_iff.mpr survives] at same
          rw [same]
          exact ⟨fun _ => .inr survives, fun _ => .inr survives⟩
        · obtain ⟨lost, steady⟩ := moved.again survives
          rw [same.mpr (.inr steady)]
          exact ⟨fun kept => absurd kept lost,
            fun either => (either.elim never_ survives).elim⟩
      · have full_ : list.length = o.capacity := Nat.le_antisymm keeps.fits (Nat.not_lt.mp room)
        obtain ⟨kept, capacity⟩ := rebuilt full_
        subst kept
        have length : (list.take before ++ [x] ++ list.drop before).length = list.length + 1 := by
          rw [List.length_append, front, List.length_drop]
          omega
        rw [length, capacity] at same
        rw [same]
        have step : Reallocates t o.capacity list.length (x :: rest).length ↔
            Reallocates t (max (t.newCapacity o.capacity) (list.length + 1)) (list.length + 1)
              rest.length := and_iff_right full_
        rw [step]

end AutoBuffer

end Signals2
