/-
A list with a roving position.  Each insertion, at either end, is preceded by the
examination of two elements from the position on: the dead are removed, the live are
left behind.  Whatever lives and dies meanwhile, if never more than `limit` elements are
alive at a time then the list stays short.

What is ahead is seen in two parts, the elements that were there when the first part was
last renewed and those appended since.  An examined element costs nothing more than what
it had been charged: an early live one is charged double, a late one for being appended,
and a renewal pays unless few elements are ahead, when the rest of the round is charged
as a whole.
-/

import Mathlib.Data.List.Count

namespace RovingSweeps

variable {Element : Type*}

def capacity (limit : Nat) : Nat := 8 * limit + 4

/-- The most that a round can begin with. -/
def roundStart (limit : Nat) : Nat := 6 * limit + 4

/-- `examined` elements have been examined for the insertion that is due, `behind` have
been left behind, and these are ahead. -/
inductive Bounded (limit : Nat) (alive : Element → Bool) (examined behind : Nat) :
    List Element → Prop
  | main (early late : List Element)
      (charge : 2 * behind + early.length + 2 * early.countP alive + 2 * late.length + examined ≤
        capacity limit) : Bounded limit alive examined behind (early ++ late)
  | final (ahead : List Element)
      (charge : 2 * behind + 4 * ahead.length + 2 * examined ≤ 12 * limit + 6) :
      Bounded limit alive examined behind ahead

variable {limit examined behind : Nat} {alive alive' : Element → Bool} {ahead : List Element}
  {element : Element}

theorem Bounded.size (bounded : Bounded limit alive examined behind ahead) :
    behind + ahead.length ≤ capacity limit := by
  cases bounded with
  | main early late charge =>
      rw [List.length_append]
      omega
  | final _ charge =>
      unfold capacity
      omega

/-- A round begins. -/
theorem Bounded.begin (short : ahead.length ≤ roundStart limit)
    (few : ahead.countP alive ≤ limit) : Bounded limit alive 0 0 ahead := by
  have whole : Bounded limit alive 0 0 (ahead ++ []) := by
    apply Bounded.main
    unfold roundStart at short
    unfold capacity
    simp only [List.length_nil]
    omega
  simpa using whole

/-- Elements die. -/
theorem Bounded.mono (bounded : Bounded limit alive examined behind ahead)
    (dies : ∀ element ∈ ahead, alive' element = true → alive element = true) :
    Bounded limit alive' examined behind ahead := by
  cases bounded with
  | main early late charge =>
      have fewer : early.countP alive' ≤ early.countP alive :=
        List.countP_mono_left fun element member =>
          dies element (List.mem_append_left _ member)
      apply Bounded.main
      omega
  | final _ charge => exact .final ahead charge

/-- The first part is used up and what has been appended takes its place. -/
theorem Bounded.renew (bounded : Bounded limit alive examined behind (element :: ahead))
    (few : (element :: ahead).countP alive ≤ limit) (due : examined < 2) :
    (∃ early late, ahead = early ++ late ∧
      2 * behind + (early.length + 1) + 2 * (element :: early).countP alive + 2 * late.length +
        examined ≤ capacity limit) ∨
    2 * behind + 4 * (ahead.length + 1) + 2 * examined ≤ 12 * limit + 6 := by
  generalize whole : element :: ahead = elements at bounded few
  cases bounded with
  | main early late charge =>
      cases early with
      | cons first rest =>
          obtain ⟨rfl, rfl⟩ := List.cons.inj whole
          left
          exact ⟨rest, late, rfl, charge⟩
      | nil =>
          rw [List.nil_append] at whole few
          subst whole
          simp only [List.length_nil, List.countP_nil, List.length_cons] at charge
          by_cases many : 2 * limit ≤ ahead.length + 1
          · left
            refine ⟨ahead, [], (List.append_nil ahead).symm, ?_⟩
            simp only [List.length_nil]
            omega
          · right
            unfold capacity at charge
            omega
  | final _ charge =>
      subst whole
      right
      simpa using charge

theorem Bounded.examine (bounded : Bounded limit alive examined behind (element :: ahead))
    (few : (element :: ahead).countP alive ≤ limit) (due : examined < 2) {behind' : Nat}
    (passed : behind' ≤ behind + if alive element = true then 1 else 0) :
    Bounded limit alive (examined + 1) behind' ahead := by
  rcases bounded.renew few due with ⟨early, late, rfl, charge⟩ | charge
  · apply Bounded.main
    rw [List.countP_cons] at charge
    split at passed <;> rename_i live
    · rw [if_pos live] at charge
      omega
    · rw [if_neg live] at charge
      omega
  · apply Bounded.final
    split at passed <;> omega

/-- An element is appended. -/
theorem Bounded.append (bounded : Bounded limit alive 2 behind ahead) (new : Element) :
    Bounded limit alive 0 behind (ahead ++ [new]) := by
  cases bounded with
  | main early late charge =>
      rw [List.append_assoc]
      apply Bounded.main
      rw [List.length_append, List.length_singleton]
      omega
  | final _ charge =>
      apply Bounded.final
      rw [List.length_append, List.length_singleton]
      omega

/-- An element is put in front of everything. -/
theorem Bounded.prepend (bounded : Bounded limit alive 2 behind ahead) :
    Bounded limit alive 0 (behind + 1) ahead := by
  cases bounded with
  | main early late charge =>
      apply Bounded.main
      omega
  | final _ charge =>
      apply Bounded.final
      omega

/-- The position has come to the end before the insertion, and a round is over. -/
theorem Bounded.ended (bounded : Bounded limit alive examined behind ahead)
    (none : ahead = []) : behind + 1 ≤ roundStart limit := by
  unfold roundStart
  cases bounded with
  | main early late charge =>
      unfold capacity at charge
      omega
  | final _ charge => omega

end RovingSweeps
