/-
Vectors that grow.  The elements lie in one block of memory; a push into a full
vector moves them to a larger one, and the iterators into the old block are lost.
How much larger the new block is, is the business of the implementation.
-/

import Mathlib.Data.List.Basic

namespace GrowingVectors

variable {Element : Type*}

/-- The capacity that a full vector of some size is given. -/
structure Growth where
  next : Nat → Nat
  grows : ∀ size, size < next size

/-- `generation` counts the moves to another block. -/
structure GrowingVector (Element : Type*) where
  elements : List Element
  capacity : Nat
  generation : Nat
  fits : elements.length ≤ capacity

structure VectorIterator where
  generation : Nat
  position : Nat
deriving DecidableEq, Repr

def VectorIterator.next (it : VectorIterator) : VectorIterator :=
  { it with position := it.position + 1 }

namespace GrowingVector

def ofList (elements : List Element) : GrowingVector Element :=
  { elements := elements
    capacity := elements.length
    generation := 0
    fits := Nat.le_refl _ }

def iteratorAt (v : GrowingVector Element) (position : Nat) : VectorIterator :=
  { generation := v.generation, position := position }

def begin (v : GrowingVector Element) : VectorIterator := v.iteratorAt 0

def past (v : GrowingVector Element) : VectorIterator := v.iteratorAt v.elements.length

/-- What an iterator refers to, if it has not been lost. -/
def value? (v : GrowingVector Element) (it : VectorIterator) : Option Element :=
  if it.generation = v.generation then v.elements[it.position]? else none

def pushBack (growth : Growth) (v : GrowingVector Element) (element : Element) :
    GrowingVector Element :=
  if room : v.elements.length < v.capacity then
    { v with
      elements := v.elements ++ [element]
      fits := by
        rw [List.length_append, List.length_singleton]
        omega }
  else
    { elements := v.elements ++ [element]
      capacity := growth.next v.elements.length
      generation := v.generation + 1
      fits := by
        rw [List.length_append, List.length_singleton]
        exact growth.grows v.elements.length }

variable {growth : Growth} {v : GrowingVector Element} {element : Element}

@[simp] theorem pushBack_elements :
    (v.pushBack growth element).elements = v.elements ++ [element] := by
  unfold pushBack
  split <;> rfl

@[simp] theorem iteratorAt_generation (position : Nat) :
    (v.iteratorAt position).generation = v.generation := rfl

@[simp] theorem past_generation : v.past.generation = v.generation := rfl

theorem iteratorAt_next (position : Nat) :
    (v.iteratorAt position).next = v.iteratorAt (position + 1) := rfl

theorem value?_iteratorAt (position : Nat) :
    v.value? (v.iteratorAt position) = v.elements[position]? :=
  if_pos rfl

theorem iteratorAt_past {position : Nat} :
    v.iteratorAt position = v.past ↔ position = v.elements.length := by
  simp [past, iteratorAt]

theorem pushBack_room (room : v.elements.length < v.capacity) :
    (v.pushBack growth element).generation = v.generation ∧
      (v.pushBack growth element).capacity = v.capacity := by
  unfold pushBack
  rw [dif_pos room]
  exact ⟨rfl, rfl⟩

theorem pushBack_full (full : ¬ v.elements.length < v.capacity) :
    (v.pushBack growth element).generation = v.generation + 1 := by
  unfold pushBack
  rw [dif_neg full]

end GrowingVector

end GrowingVectors
