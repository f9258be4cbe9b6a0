/-
Association lists kept in the order of a comparison on their keys, addressed by
position the way an ordered map is addressed by iterators.  Lookups are by
lower and upper bound; insertion keeps an equivalent entry that is already
there.
-/

import Mathlib.Data.List.Basic

namespace SortedMaps

variable {Key Value : Type}

def lowerBound (less : Key → Key → Bool) (entries : List (Key × Value)) (key : Key) : Nat :=
  (entries.takeWhile fun entry => less entry.1 key).length

def upperBound (less : Key → Key → Bool) (entries : List (Key × Value)) (key : Key) : Nat :=
  (entries.takeWhile fun entry => !less key entry.1).length

def insertAt (entries : List (Key × Value)) (position : Nat) (entry : Key × Value) :
    List (Key × Value) :=
  entries.take position ++ entry :: entries.drop position

def eraseAt (entries : List (Key × Value)) (position : Nat) : List (Key × Value) :=
  entries.take position ++ entries.drop (position + 1)

/-- Insertion that leaves an equivalent entry alone. -/
def insertEntry (less : Key → Key → Bool) (entries : List (Key × Value))
    (entry : Key × Value) : List (Key × Value) :=
  let position := lowerBound less entries entry.1
  match entries[position]? with
  | none => insertAt entries position entry
  | some present =>
      if less entry.1 present.1 then insertAt entries position entry else entries

/-- Assignment through the key: an equivalent entry keeps its key. -/
def assign (less : Key → Key → Bool) (entries : List (Key × Value)) (key : Key)
    (value : Value) : List (Key × Value) :=
  let position := lowerBound less entries key
  match entries[position]? with
  | none => insertAt entries position (key, value)
  | some present =>
      if less key present.1 then insertAt entries position (key, value)
      else entries.set position (present.1, value)

variable {less : Key → Key → Bool} {before after : List (Key × Value)} {key : Key}

private theorem takeWhile_split {Entry : Type} {prior : Entry → Bool}
    {first second : List Entry} (left : ∀ entry ∈ first, prior entry = true)
    (right : ∀ entry ∈ second.head?, prior entry = false) :
    (first ++ second).takeWhile prior = first := by
  rw [List.takeWhile_append_of_pos left]
  cases second with
  | nil => simp
  | cons head tail =>
      have failed : ¬ prior head = true := by simp [right head rfl]
      rw [List.takeWhile_cons_of_neg failed, List.append_nil]

theorem lowerBound_split (left : ∀ entry ∈ before, less entry.1 key = true)
    (right : ∀ entry ∈ after.head?, less entry.1 key = false) :
    lowerBound less (before ++ after) key = before.length := by
  unfold lowerBound
  rw [takeWhile_split left right]

theorem upperBound_split (left : ∀ entry ∈ before, less key entry.1 = false)
    (right : ∀ entry ∈ after.head?, less key entry.1 = true) :
    upperBound less (before ++ after) key = before.length := by
  unfold upperBound
  rw [takeWhile_split (fun entry member => by simp [left entry member])
    (fun entry member => by simp [right entry member])]

theorem getElem?_split : (before ++ after)[before.length]? = after.head? := by
  rw [List.getElem?_append_right (Nat.le_refl _), Nat.sub_self, List.head?_eq_getElem?]

theorem eraseAt_split (entry : Key × Value) :
    eraseAt (before ++ entry :: after) before.length = before ++ after := by
  unfold eraseAt
  rw [List.take_left, ← List.drop_drop, List.drop_left]
  rfl

theorem insertEntry_split {entry : Key × Value}
    (left : ∀ other ∈ before, less other.1 entry.1 = true)
    (below : ∀ other ∈ after.head?, less other.1 entry.1 = false)
    (above : ∀ other ∈ after.head?, less entry.1 other.1 = true) :
    insertEntry less (before ++ after) entry = before ++ entry :: after := by
  unfold insertEntry
  simp only [lowerBound_split left below, getElem?_split]
  have inserted : insertAt (before ++ after) before.length entry =
      before ++ entry :: after := by
    unfold insertAt
    rw [List.take_left, List.drop_left]
  cases found : after.head? with
  | none => exact inserted
  | some present => simp only [above present found, if_true, inserted]

theorem assign_split {present : Key × Value} (value : Value)
    (left : ∀ other ∈ before, less other.1 key = true)
    (below : less present.1 key = false) (notAbove : less key present.1 = false) :
    assign less (before ++ present :: after) key value =
      before ++ (present.1, value) :: after := by
  unfold assign
  have bound : lowerBound less (before ++ present :: after) key = before.length := by
    refine lowerBound_split left ?_
    intro entry first
    cases first
    exact below
  simp only [bound, getElem?_split, List.head?_cons, notAbove, Bool.false_eq_true, if_false]
  rw [List.set_append_right _ _ (Nat.le_refl _), Nat.sub_self]
  rfl

end SortedMaps
