/-
Replacing one element of a list: what a map, a count, a membership test and a sum
over the positions see of it.
-/

import Mathlib.Data.List.Basic
import Mathlib.Data.List.ReduceOption

namespace IndexedLists

variable {α β : Type*} {list : List α} {n : Nat} {old new : α}

/-- A map that does not tell the new element from the old one. -/
theorem map_set_same {f : α → β} (found : list[n]? = some old) (same : f new = f old) :
    (list.set n new).map f = list.map f := by
  rw [List.map_set, same]
  refine List.ext_getElem? fun other => ?_
  by_cases here : n = other
  · subst here
    have bound : n < (list.map f).length := by
      rw [List.length_map]
      exact (List.getElem?_eq_some_iff.mp found).1
    rw [List.getElem?_set_self bound, List.getElem?_map, found]
    rfl
  · rw [List.getElem?_set_ne here]

/-- An entry that is emptied is one value less. -/
theorem reduceOption_set_none (entries : List (Option α)) (n : Nat) :
    (entries.set n none).reduceOption.Sublist entries.reduceOption := by
  induction entries generalizing n with
  | nil => exact List.Sublist.refl _
  | cons entry rest ih =>
      cases n with
      | zero =>
          rw [List.set_cons_zero, List.reduceOption_cons_of_none]
          cases entry with
          | none => exact List.Sublist.refl _
          | some value => exact List.sublist_cons_self value _
      | succ later =>
          rw [List.set_cons_succ]
          cases entry with
          | none => exact ih later
          | some value => exact (ih later).cons_cons value

theorem countP_set (p : α → Bool) (found : list[n]? = some old) (new : α) :
    (list.set n new).countP p + (if p old then 1 else 0) =
      list.countP p + (if p new then 1 else 0) := by
  induction list generalizing n with
  | nil => simp at found
  | cons head tail ih =>
      cases n with
      | zero =>
          have same : head = old := by simpa using found
          subst same
          simp only [List.set_cons_zero, List.countP_cons]
          omega
      | succ n =>
          have rest := ih (by simpa using found)
          simp only [List.set_cons_succ, List.countP_cons]
          omega

/-- The sum of what each element costs at its position. -/
def total : (Nat → α → Nat) → List α → Nat
  | _, [] => 0
  | cost, head :: tail => cost 0 head + total (fun n => cost (n + 1)) tail

theorem total_cons (cost : Nat → α → Nat) (head : α) (tail : List α) :
    total cost (head :: tail) = cost 0 head + total (fun n => cost (n + 1)) tail := rfl

theorem total_append (cost : Nat → α → Nat) (list : List α) (last : α) :
    total cost (list ++ [last]) = total cost list + cost list.length last := by
  induction list generalizing cost with
  | nil => simp [total]
  | cons head tail ih => simp only [List.cons_append, total_cons, ih, List.length_cons, Nat.add_assoc]

theorem total_const (n : Nat) (list : List α) : total (fun _ _ => n) list = list.length * n := by
  induction list with
  | nil => simp [total]
  | cons head tail ih => rw [total_cons, ih, List.length_cons, Nat.succ_mul, Nat.add_comm]

/-- A part of the list costs no more, where the position does not matter. -/
theorem total_sublist {part : List α} (cost : α → Nat) (inside : part.Sublist list) :
    total (fun _ => cost) part ≤ total (fun _ => cost) list := by
  induction inside with
  | slnil => exact Nat.le_refl _
  | cons head _ ih => exact Nat.le_trans ih (Nat.le_add_left _ _)
  | cons_cons head _ ih => exact Nat.add_le_add_left ih _

theorem total_le (cost cost' : Nat → α → Nat)
    (lower : ∀ n x, list[n]? = some x → cost' n x ≤ cost n x) :
    total cost' list ≤ total cost list := by
  induction list generalizing cost cost' with
  | nil => exact Nat.le_refl _
  | cons head tail ih =>
      rw [total_cons, total_cons]
      have rest := ih (fun n => cost (n + 1)) (fun n => cost' (n + 1))
        fun n x found => lower (n + 1) x (by simpa using found)
      have first := lower 0 head rfl
      omega

/-- Each element changes, and gets no dearer. -/
theorem total_mapIdx_le (cost : Nat → α → Nat) (f : Nat → α → α)
    (lower : ∀ n x, list[n]? = some x → cost n (f n x) ≤ cost n x) :
    total cost (list.mapIdx f) ≤ total cost list := by
  induction list generalizing cost f with
  | nil => exact Nat.le_refl _
  | cons head tail ih =>
      rw [List.mapIdx_cons, total_cons, total_cons]
      have rest := ih (fun n => cost (n + 1)) (fun n => f (n + 1))
        fun n x found => lower (n + 1) x (by simpa using found)
      have first := lower 0 head rfl
      exact Nat.add_le_add first rest

theorem total_map_le (cost : Nat → α → Nat) (f : α → α)
    (lower : ∀ n x, list[n]? = some x → cost n (f x) ≤ cost n x) :
    total cost (list.map f) ≤ total cost list := by
  have same : list.map f = list.mapIdx fun _ => f := by
    apply List.ext_getElem?
    intro n
    rw [List.getElem?_map, List.getElem?_mapIdx]
  rw [same]
  exact total_mapIdx_le cost (fun _ => f) lower

/-- One element changes, and the others get no dearer. -/
theorem total_set (cost cost' : Nat → α → Nat) (found : list[n]? = some old) (new : α)
    (others : ∀ m x, m ≠ n → list[m]? = some x → cost' m x ≤ cost m x) :
    total cost' (list.set n new) + cost n old ≤ total cost list + cost' n new := by
  induction list generalizing cost cost' n with
  | nil => simp at found
  | cons head tail ih =>
      cases n with
      | zero =>
          have same : head = old := by simpa using found
          subst same
          rw [List.set_cons_zero, total_cons, total_cons]
          have rest : total (fun n => cost' (n + 1)) tail ≤ total (fun n => cost (n + 1)) tail :=
            total_le _ _ fun m x there => others (m + 1) x (Nat.succ_ne_zero m) (by simpa using there)
          omega
      | succ n =>
          rw [List.set_cons_succ, total_cons, total_cons]
          have rest := ih (fun n => cost (n + 1)) (fun n => cost' (n + 1))
            (by simpa using found) fun m x apart there =>
              others (m + 1) x (fun same => apart (Nat.succ.inj same)) (by simpa using there)
          have first := others 0 head (Nat.succ_ne_zero n).symm rfl
          omega

end IndexedLists
