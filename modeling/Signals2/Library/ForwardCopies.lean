/-
Copying a part of a list over another part of it, element by element from the front.
To the left this moves the part as a whole does.  To the right, by a gap shorter than
the part, it repeats the first elements of the part all over.
-/

import Mathlib.Data.List.Basic

namespace ForwardCopies

variable {Element : Type*}

/-- `new` in the place of as many elements from `start` on. -/
def overwrite (values : List Element) (start : Nat) (new : List Element) : List Element :=
  values.take start ++ new ++ values.drop (start + new.length)

/-- One element over another. -/
def copyOne (values : List Element) (first dest : Nat) : List Element :=
  match values[first]? with
  | none => values
  | some v => values.set dest v

/-- The first `n` rounds of a loop over `*dest++ = *first++`. -/
def forwardCopy (values : List Element) (first dest : Nat) : Nat → List Element
  | 0 => values
  | n + 1 => copyOne (forwardCopy values first dest n) (first + n) (dest + n)

/-- All at once, as if through a buffer. -/
def blockMove (values : List Element) (first dest n : Nat) : List Element :=
  overwrite values dest ((values.drop first).take n)

variable {values new : List Element} {first dest start n : Nat}

theorem overwrite_length (fits : start + new.length ≤ values.length) :
    (overwrite values start new).length = values.length := by
  simp only [overwrite, List.length_append, List.length_take, List.length_drop]
  omega

theorem overwrite_getElem? (fits : start + new.length ≤ values.length) (i : Nat) :
    (overwrite values start new)[i]? =
      if start ≤ i ∧ i < start + new.length then new[i - start]? else values[i]? := by
  have front : (values.take start).length = start := by
    rw [List.length_take]
    omega
  rw [overwrite, List.append_assoc]
  by_cases before : i < start
  · rw [List.getElem?_append_left (by omega), List.getElem?_take_of_lt before,
      if_neg (by omega)]
  · rw [List.getElem?_append_right (by omega), front]
    by_cases inside : i < start + new.length
    · rw [List.getElem?_append_left (by omega), if_pos ⟨by omega, inside⟩]
    · rw [List.getElem?_append_right (by omega), List.getElem?_drop, if_neg (by omega)]
      congr 1
      omega

theorem overwrite_nil : overwrite values start [] = values := by
  rw [overwrite, List.append_nil, List.length_nil, Nat.add_zero, List.take_append_drop]

theorem overwrite_whole (size : new.length = values.length) : overwrite values 0 new = new := by
  rw [overwrite, List.take_zero, List.nil_append, Nat.zero_add, size, List.drop_length,
    List.append_nil]

/-- One element, then the others. -/
theorem overwrite_cons {v : Element} (fits : start + new.length < values.length) :
    overwrite (values.set start v) (start + 1) new = overwrite values start (v :: new) := by
  apply List.ext_getElem?
  intro i
  have wide : start + (v :: new).length ≤ values.length := by
    rw [List.length_cons]
    omega
  have narrow : start + 1 + new.length ≤ (values.set start v).length := by
    rw [List.length_set]
    omega
  rw [overwrite_getElem? wide, overwrite_getElem? narrow, List.length_cons]
  by_cases same : i = start
  · subst same
    rw [if_neg (by omega), if_pos (by omega), Nat.sub_self, List.getElem?_set_self (by omega)]
    rfl
  · rw [List.getElem?_set_ne (Ne.symm same)]
    by_cases inside : start + 1 ≤ i ∧ i < start + 1 + new.length
    · have further : i - start = i - (start + 1) + 1 := by omega
      rw [if_pos inside, if_pos (by omega), further, List.getElem?_cons_succ]
    · rw [if_neg inside, if_neg (by omega)]

theorem copyOne_eq_set (inside : first < values.length) :
    copyOne values first dest = values.set dest values[first] := by
  simp only [copyOne, List.getElem?_eq_getElem inside]

theorem copyOne_length : (copyOne values first dest).length = values.length := by
  unfold copyOne
  split
  · rfl
  · exact List.length_set

theorem copyOne_getElem? (inside : first < values.length) (fits : dest < values.length)
    (i : Nat) :
    (copyOne values first dest)[i]? = if i = dest then values[first]? else values[i]? := by
  have here : values[first]? = some values[first] := List.getElem?_eq_getElem inside
  simp only [copyOne, here]
  by_cases same : i = dest
  · subst same
    rw [if_pos rfl, List.getElem?_set_self fits]
  · rw [if_neg same, List.getElem?_set_ne (Ne.symm same)]

theorem forwardCopy_length : (forwardCopy values first dest n).length = values.length := by
  induction n with
  | zero => rfl
  | succ n ih => rw [forwardCopy, copyOne_length, ih]

/-! ### To the left -/

theorem forwardCopy_left_getElem? (left : dest ≤ first) (fits : first + n ≤ values.length)
    (i : Nat) :
    (forwardCopy values first dest n)[i]? =
      if dest ≤ i ∧ i < dest + n then values[first + (i - dest)]? else values[i]? := by
  induction n generalizing i with
  | zero => rw [forwardCopy, if_neg (by omega)]
  | succ n ih =>
      have shorter : first + n ≤ values.length := by omega
      -- the element that is read lies behind everything that has been written
      have unread := ih shorter (first + n)
      rw [if_neg (by omega)] at unread
      rw [forwardCopy, copyOne_getElem? (by rw [forwardCopy_length]; omega)
        (by rw [forwardCopy_length]; omega), unread]
      by_cases last : i = dest + n
      · rw [if_pos last, if_pos (by omega)]
        congr 1
        omega
      · rw [if_neg last, ih shorter i]
        by_cases earlier : dest ≤ i ∧ i < dest + n
        · rw [if_pos earlier, if_pos (by omega)]
        · rw [if_neg earlier, if_neg (by omega)]

theorem blockMove_getElem? (fits : first + n ≤ values.length) (room : dest + n ≤ values.length)
    (i : Nat) :
    (blockMove values first dest n)[i]? =
      if dest ≤ i ∧ i < dest + n then values[first + (i - dest)]? else values[i]? := by
  have length : ((values.drop first).take n).length = n := by
    rw [List.length_take, List.length_drop]
    omega
  rw [blockMove, overwrite_getElem? (by rw [length]; exact room), length]
  by_cases inside : dest ≤ i ∧ i < dest + n
  · rw [if_pos inside, if_pos inside, List.getElem?_take_of_lt (by omega), List.getElem?_drop]
  · rw [if_neg inside, if_neg inside]

theorem blockMove_length (room : dest + n ≤ values.length) :
    (blockMove values first dest n).length = values.length := by
  apply overwrite_length
  rw [List.length_take, List.length_drop]
  omega

/-- To the left, element by element is as good as all at once. -/
theorem forwardCopy_left (left : dest ≤ first) (fits : first + n ≤ values.length) :
    forwardCopy values first dest n = blockMove values first dest n := by
  apply List.ext_getElem?
  intro i
  rw [forwardCopy_left_getElem? left fits, blockMove_getElem? fits (by omega)]

theorem blockMove_none : blockMove values first dest 0 = values := by
  rw [blockMove, List.take_zero, overwrite_nil]

/-- A gap is closed by a move from its right, whose last elements are then left out.  When
fewer elements are moved than stand there, the rest must agree with what it replaces. -/
theorem blockMove_close_iff (order : dest ≤ first) (fits : first + n ≤ values.length) :
    (blockMove values first dest n).take (values.length - (first - dest)) =
        values.take dest ++ values.drop first ↔
      ∀ k, n ≤ k → first + k < values.length → values[dest + k]? = values[first + k]? := by
  have length : (values.take dest).length = dest := by
    rw [List.length_take]
    omega
  rw [List.ext_getElem?_iff]
  constructor
  · intro same k unmoved inside
    have here := same (dest + k)
    rw [List.getElem?_take_of_lt (by omega), blockMove_getElem? fits (by omega),
      if_neg (by omega), List.getElem?_append_right (by omega), length, List.getElem?_drop] at here
    rw [here]
    congr 1
    omega
  · intro agree i
    by_cases left : i < dest
    · rw [List.getElem?_take_of_lt (by omega), blockMove_getElem? fits (by omega),
        if_neg (by omega), List.getElem?_append_left (by omega), List.getElem?_take_of_lt left]
    · rw [List.getElem?_append_right (by omega), length, List.getElem?_drop]
      by_cases beyond : values.length - (first - dest) ≤ i
      · rw [List.getElem?_eq_none (by rw [List.length_take]; omega),
          List.getElem?_eq_none (by omega)]
      · rw [List.getElem?_take_of_lt (by omega), blockMove_getElem? fits (by omega)]
        by_cases moved : i < dest + n
        · rw [if_pos (by omega)]
        · have later := agree (i - dest) (by omega) (by omega)
          have same : dest + (i - dest) = i := by omega
          rw [same] at later
          rw [if_neg (by omega), later]

/-! ### To the right -/

/-- The element at a place behind the gap is the one at the same place in the gap's first
round. -/
theorem forwardCopy_right_getElem? {gap : Nat} (positive : 0 < gap)
    (fits : first + gap + n ≤ values.length) (i : Nat) :
    (forwardCopy values first (first + gap) n)[i]? =
      if first + gap ≤ i ∧ i < first + gap + n then
        values[first + (i - (first + gap)) % gap]?
      else values[i]? := by
  induction n generalizing i with
  | zero => rw [forwardCopy, if_neg (by omega)]
  | succ n ih =>
      have shorter : first + gap + n ≤ values.length := by omega
      -- the element that is read: untouched in the first round, else written before
      have read : (forwardCopy values first (first + gap) n)[first + n]? =
          values[first + n % gap]? := by
        rw [ih shorter]
        by_cases round : n < gap
        · rw [if_neg (by omega), Nat.mod_eq_of_lt round]
        · rw [if_pos (by omega)]
          have earlier : first + n - (first + gap) = n - gap := by omega
          rw [earlier, ← Nat.mod_eq_sub_mod (by omega)]
      rw [forwardCopy, copyOne_getElem? (by rw [forwardCopy_length]; omega)
        (by rw [forwardCopy_length]; omega), read]
      by_cases last : i = first + gap + n
      · rw [if_pos last, if_pos (by omega)]
        have offset : i - (first + gap) = n := by omega
        rw [offset]
      · rw [if_neg last, ih shorter i]
        by_cases earlier : first + gap ≤ i ∧ i < first + gap + n
        · rw [if_pos earlier, if_pos (by omega)]
        · rw [if_neg earlier, if_neg (by omega)]

/-- Every element is the one `gap` places before it. -/
def Repeats (gap : Nat) (values : List Element) : Prop :=
  ∀ j, j + gap < values.length → values[j + gap]? = values[j]?

theorem Repeats.mod {gap : Nat} (repeats : Repeats gap values) {j : Nat}
    (inside : j < values.length) : values[j % gap]? = values[j]? := by
  induction j using Nat.strongRecOn with
  | ind j ih =>
      by_cases round : j < gap
      · rw [Nat.mod_eq_of_lt round]
      · by_cases zero : gap = 0
        · rw [zero, Nat.mod_zero]
        · have back : j - gap + gap = j := by omega
          have step := repeats (j - gap) (by omega)
          rw [back] at step
          rw [step, ← ih (j - gap) (by omega) (by omega), Nat.mod_eq_sub_mod (by omega)]

theorem repeats_iff_mod {gap : Nat} :
    Repeats gap values ↔ ∀ j < values.length, values[j % gap]? = values[j]? := by
  constructor
  · intro repeats j inside
    exact repeats.mod inside
  · intro same j inside
    rw [← same (j + gap) inside, Nat.add_mod_right, same j (by omega)]

/-! ### Making room -/

/-- The elements of a list, over and over in rounds of `n`. -/
structure Rounds (n : Nat) (values copies : List Element) : Prop where
  length : copies.length = values.length
  getElem? : ∀ j < values.length, copies[j]? = values[j % n]?

theorem Rounds.eq_iff {copies : List Element} (rounds : Rounds n values copies) :
    copies = values ↔ Repeats n values := by
  rw [repeats_iff_mod]
  constructor
  · rintro rfl j inside
    exact (rounds.getElem? j inside).symm
  · intro same
    apply List.ext_getElem?
    intro j
    by_cases inside : j < values.length
    · rw [rounds.getElem? j inside, same j inside]
    · have beyond : copies.length ≤ j := by
        rw [rounds.length]
        omega
      rw [List.getElem?_eq_none beyond, List.getElem?_eq_none (by omega)]

/-- Elements that all are the first one stay so. -/
theorem Rounds.constant {copies : List Element} (rounds : Rounds 1 values copies) :
    Repeats 1 copies := by
  rw [repeats_iff_mod]
  intro j inside
  rw [rounds.length] at inside
  have first := rounds.getElem? 0 (by omega)
  have here := rounds.getElem? j inside
  rw [Nat.mod_one] at first here ⊢
  exact first.trans here.symm

variable {grown : List Element} {before : Nat}

private theorem drop_append_getElem? {j : Nat} (fits : before + j < values.length) :
    (values ++ grown)[before + j]? = (values.drop before)[j]? := by
  rw [List.getElem?_append_left fits, List.getElem?_drop]

/-- A list in a gap: what was before it, the new elements, and what the copying makes of
the rest. -/
theorem overwrite_gap {moved : List Element} (inside : before ≤ values.length)
    (size : moved.length = values.length + new.length)
    (front : ∀ i < before, moved[i]? = values[i]?) :
    overwrite moved before new =
      values.take before ++ new ++ moved.drop (before + new.length) := by
  have same : moved.take before = values.take before := by
    apply List.ext_getElem?
    intro i
    by_cases early : i < before
    · rw [List.getElem?_take_of_lt early, List.getElem?_take_of_lt early, front i early]
    · rw [List.getElem?_eq_none, List.getElem?_eq_none]
      · rw [List.length_take]
        omega
      · rw [List.length_take]
        omega
  rw [overwrite, same]

/-- Element by element, the rest comes in rounds as long as the gap. -/
theorem forwardCopy_gap (inside : before ≤ values.length) (size : grown.length = new.length) :
    ∃ copies, overwrite (forwardCopy (values ++ grown) before (before + new.length)
        (values.length - before)) before new = values.take before ++ new ++ copies ∧
      Rounds new.length (values.drop before) copies := by
  have total : (values ++ grown).length = values.length + new.length := by
    rw [List.length_append, size]
  have fits : before + new.length + (values.length - before) ≤ (values ++ grown).length := by
    omega
  by_cases nothing : new.length = 0
  · -- nothing is copied anywhere
    have still : forwardCopy (values ++ grown) before (before + new.length)
        (values.length - before) = values := by
      have empty : grown = [] := List.eq_nil_of_length_eq_zero (size.trans nothing)
      rw [nothing, Nat.add_zero, empty, List.append_nil]
      apply List.ext_getElem?
      intro i
      rw [forwardCopy_left_getElem? (Nat.le_refl _) (by omega)]
      split
      · congr 1
        omega
      · rfl
    refine ⟨values.drop before, ?_, rfl, fun j _ => by rw [nothing, Nat.mod_zero]⟩
    rw [still, overwrite_gap inside (by omega) fun _ _ => rfl, nothing, Nat.add_zero]
  · have positive : 0 < new.length := Nat.pos_of_ne_zero nothing
    have moved := forwardCopy_right_getElem? positive fits
    refine ⟨_, overwrite_gap inside ?_ ?_, ?_, ?_⟩
    · rw [forwardCopy_length, total]
    · intro i early
      rw [moved, if_neg (by omega), List.getElem?_append_left (by omega)]
    · rw [List.length_drop, forwardCopy_length, total, List.length_drop]
      omega
    · intro j below
      rw [List.length_drop] at below
      have round : j % new.length ≤ j := Nat.mod_le _ _
      have offset : before + new.length + j - (before + new.length) = j := by omega
      rw [List.getElem?_drop, moved, if_pos (by omega), offset,
        drop_append_getElem? (by omega)]

/-- All at once, the rest is as it was. -/
theorem blockMove_gap (inside : before ≤ values.length) (size : grown.length = new.length) :
    overwrite (blockMove (values ++ grown) before (before + new.length)
        (values.length - before)) before new = values.take before ++ new ++ values.drop before := by
  have total : (values ++ grown).length = values.length + new.length := by
    rw [List.length_append, size]
  have source : before + (values.length - before) ≤ (values ++ grown).length := by omega
  have room : before + new.length + (values.length - before) ≤ (values ++ grown).length := by
    omega
  have moved := blockMove_getElem? source room
  rw [overwrite_gap inside]
  · congr 1
    apply List.ext_getElem?
    intro j
    rw [List.getElem?_drop, moved]
    by_cases below : j < values.length - before
    · have offset : before + new.length + j - (before + new.length) = j := by omega
      rw [if_pos (by omega), offset, drop_append_getElem? (by omega)]
    · rw [if_neg (by omega), List.getElem?_eq_none, List.getElem?_eq_none]
      · rw [List.length_drop]
        omega
      · omega
  · rw [blockMove_length room, total]
  · intro i early
    rw [moved, if_neg (by omega), List.getElem?_append_left (by omega)]

end ForwardCopies
