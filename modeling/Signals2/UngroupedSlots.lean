/-
Slots without a group.  Their keys are compared by the meta group alone, so no group
comparison, however strange, has a say in where they go; a list of them that is kept by
any two comparisons is consistent for the comparison under which no group is below another.
-/

import Signals2.SlotGroupsOperations

namespace Signals2

open LinkedLists OrderedInsertion

variable {Group Value : Type}

def GroupKey.Ungrouped (key : GroupKey Group) : Prop := key.first ≠ .groupedSlots

/-- No group is below another. -/
def unordered (_ _ : Group) : Bool := false

theorem unordered_strictWeak : StrictWeak (unordered : Group → Group → Bool) where
  irrefl group := by simp [unordered]
  trans first second third := by simp [unordered]
  incomp_trans first second third := by simp [unordered]

/-! ### Keys -/

theorem groupKeyLess_left {key : GroupKey Group} (ungrouped : key.Ungrouped)
    (compare compare' : Group → Group → Bool) (other : GroupKey Group) :
    groupKeyLess compare key other = groupKeyLess compare' key other := by
  cases key with
  | groupedSlots group => exact absurd rfl ungrouped
  | frontUngroupedSlots => cases other <;> rfl
  | backUngroupedSlots => cases other <;> rfl

theorem groupKeyLess_right {key : GroupKey Group} (ungrouped : key.Ungrouped)
    (compare compare' : Group → Group → Bool) (other : GroupKey Group) :
    groupKeyLess compare other key = groupKeyLess compare' other key := by
  cases key with
  | groupedSlots group => exact absurd rfl ungrouped
  | frontUngroupedSlots => cases other <;> rfl
  | backUngroupedSlots => cases other <;> rfl

theorem groupKeyLess_front (compare : Group → Group → Bool) (key : GroupKey Group) :
    groupKeyLess compare key .frontUngroupedSlots = false := by
  cases key <;> rfl

theorem groupKeyLess_back (compare : Group → Group → Bool) (key : GroupKey Group) :
    groupKeyLess compare .backUngroupedSlots key = false := by
  cases key <;> rfl

namespace GroupedList

variable {g : GroupedList Group Value} {key : GroupKey Group} {compare : Group → Group → Bool}

/-- The list as if it had been made with this comparison throughout. -/
def withCompare (g : GroupedList Group Value) (compare : Group → Group → Bool) :
    GroupedList Group Value :=
  { g with mapCompare := compare, groupKeyCompare := compare }

/-! ### Operations under an ungrouped key -/

theorem mapLowerBound_withCompare (ungrouped : key.Ungrouped)
    (map : List (GroupKey Group × Iterator)) :
    SortedMaps.lowerBound (groupKeyLess (g.withCompare compare).mapCompare) map key =
      SortedMaps.lowerBound (groupKeyLess g.mapCompare) map key := by
  unfold SortedMaps.lowerBound
  simp only [groupKeyLess_right ungrouped (g.withCompare compare).mapCompare g.mapCompare]

theorem mapUpperBound_withCompare (ungrouped : key.Ungrouped)
    (map : List (GroupKey Group × Iterator)) :
    SortedMaps.upperBound (groupKeyLess (g.withCompare compare).mapCompare) map key =
      SortedMaps.upperBound (groupKeyLess g.mapCompare) map key := by
  unfold SortedMaps.upperBound
  simp only [groupKeyLess_left ungrouped (g.withCompare compare).mapCompare g.mapCompare]

theorem insertEntry_withCompare (ungrouped : key.Ungrouped)
    (map : List (GroupKey Group × Iterator)) (it : Iterator) :
    SortedMaps.insertEntry (groupKeyLess (g.withCompare compare).mapCompare) map (key, it) =
      SortedMaps.insertEntry (groupKeyLess g.mapCompare) map (key, it) := by
  unfold SortedMaps.insertEntry
  simp only [mapLowerBound_withCompare ungrouped,
    groupKeyLess_left ungrouped (g.withCompare compare).mapCompare g.mapCompare]

theorem assign_withCompare (ungrouped : key.Ungrouped)
    (map : List (GroupKey Group × Iterator)) (it : Iterator) :
    SortedMaps.assign (groupKeyLess (g.withCompare compare).mapCompare) map key it =
      SortedMaps.assign (groupKeyLess g.mapCompare) map key it := by
  unfold SortedMaps.assign
  simp only [mapLowerBound_withCompare ungrouped,
    groupKeyLess_left ungrouped (g.withCompare compare).mapCompare g.mapCompare]

theorem weaklyEquivalent_withCompare (ungrouped : key.Ungrouped) (other : GroupKey Group) :
    (g.withCompare compare).weaklyEquivalent key other = g.weaklyEquivalent key other ∧
      (g.withCompare compare).weaklyEquivalent other key = g.weaklyEquivalent other key := by
  unfold weaklyEquivalent
  rw [groupKeyLess_left ungrouped (g.withCompare compare).groupKeyCompare g.groupKeyCompare,
    groupKeyLess_right ungrouped (g.withCompare compare).groupKeyCompare g.groupKeyCompare]
  exact ⟨rfl, rfl⟩

theorem mInsert_withCompare (ungrouped : key.Ungrouped) (mapIt : Nat) (value : Value) :
    (g.withCompare compare).mInsert mapIt key value =
      (g.mInsert mapIt key value).withCompare compare := by
  have map : (g.withCompare compare).mInsertMap mapIt key g.list.upcoming =
      g.mInsertMap mapIt key g.list.upcoming := by
    unfold mInsertMap
    simp only [weaklyEquivalent_withCompare ungrouped, mapLowerBound_withCompare ungrouped,
      insertEntry_withCompare ungrouped]
    rfl
  unfold mInsert
  rw [show (g.withCompare compare).list.upcoming = g.list.upcoming from rfl, map]
  rfl

theorem pushFront_withCompare (ungrouped : key.Ungrouped) (value : Value) :
    (g.withCompare compare).pushFront key value =
      (g.pushFront key value).withCompare compare := by
  unfold pushFront
  simp only [mapLowerBound_withCompare ungrouped, mInsert_withCompare ungrouped]
  rfl

theorem pushBack_withCompare (ungrouped : key.Ungrouped) (value : Value) :
    (g.withCompare compare).pushBack key value =
      (g.pushBack key value).withCompare compare := by
  unfold pushBack
  simp only [mapUpperBound_withCompare ungrouped, mInsert_withCompare ungrouped]
  rfl

theorem erase_withCompare (ungrouped : key.Ungrouped) (it : Iterator) :
    (g.withCompare compare).erase key it =
      (g.erase key it).map fun erased => (erased.1.withCompare compare, erased.2) := by
  unfold erase upperBound
  simp only [mapLowerBound_withCompare ungrouped, mapUpperBound_withCompare ungrouped,
    weaklyEquivalent_withCompare ungrouped, assign_withCompare ungrouped]
  simp only [withCompare, getListIterator]
  by_cases atEnd : it = g.list.past
  · simp only [atEnd, if_true, Option.map_none]
  · simp only [atEnd, if_false]
    cases g.groupMap[SortedMaps.lowerBound (groupKeyLess g.mapCompare) g.groupMap key]? with
    | none => rfl
    | some entry =>
        dsimp only
        split <;> rfl

/-! ### A list of ungrouped slots -/

/-- Consistent, whatever the comparisons in use are, with no group among the keys. -/
structure AllUngrouped (g : GroupedList Group Value) (keyOf : Value → GroupKey Group) : Prop where
  consistent : (g.withCompare unordered).Consistent unordered keyOf
  keys : ∀ value ∈ g.list.values, (keyOf value).Ungrouped

variable {keyOf : Value → GroupKey Group}

theorem construct_allUngrouped (name : Nat) (defaultCompare groupCompare : Group → Group → Bool)
    (keyOf : Value → GroupKey Group) :
    (construct name defaultCompare groupCompare : GroupedList Group Value).AllUngrouped keyOf where
  consistent := construct_consistent name unordered keyOf
  keys value member := by cases member

theorem AllUngrouped.congr_keys {keyOf' : Value → GroupKey Group} (all : g.AllUngrouped keyOf)
    (same : ∀ value ∈ g.list.values, keyOf' value = keyOf value) : g.AllUngrouped keyOf' where
  consistent := all.consistent.congr_keys fun node member =>
    same node.2 (List.mem_map_of_mem member)
  keys value member := by
    rw [same value member]
    exact all.keys value member

theorem AllUngrouped.pushFront (all : g.AllUngrouped keyOf) {value : Value}
    (keyed : keyOf value = .frontUngroupedSlots) :
    (g.pushFront .frontUngroupedSlots value).AllUngrouped keyOf ∧
      (g.pushFront .frontUngroupedSlots value).list.nodes =
        (g.list.fresh, value) :: g.list.nodes := by
  have ungrouped : (GroupKey.frontUngroupedSlots : GroupKey Group).Ungrouped := by
    simp [GroupKey.Ungrouped, GroupKey.first]
  obtain ⟨consistent, nodes⟩ := all.consistent.pushFront unordered_strictWeak keyed
  rw [pushFront_withCompare ungrouped] at consistent nodes
  have first : (g.pushFront .frontUngroupedSlots value).list.nodes =
      (g.list.fresh, value) :: g.list.nodes := by
    refine nodes.trans ?_
    simp only [groupKeyLess_front, insertWhere_first]
    rfl
  refine ⟨⟨consistent, ?_⟩, first⟩
  intro other member
  rw [LinkedList.values, first] at member
  rcases List.mem_cons.mp member with same | old
  · rw [same, keyed]
    exact ungrouped
  · exact all.keys other old

theorem AllUngrouped.pushBack (all : g.AllUngrouped keyOf) {value : Value}
    (keyed : keyOf value = .backUngroupedSlots) :
    (g.pushBack .backUngroupedSlots value).AllUngrouped keyOf ∧
      (g.pushBack .backUngroupedSlots value).list.nodes =
        g.list.nodes ++ [(g.list.fresh, value)] := by
  have ungrouped : (GroupKey.backUngroupedSlots : GroupKey Group).Ungrouped := by
    simp [GroupKey.Ungrouped, GroupKey.first]
  obtain ⟨consistent, nodes⟩ := all.consistent.pushBack unordered_strictWeak keyed
  rw [pushBack_withCompare ungrouped] at consistent nodes
  have last : (g.pushBack .backUngroupedSlots value).list.nodes =
      g.list.nodes ++ [(g.list.fresh, value)] := by
    refine nodes.trans ?_
    simp only [groupKeyLess_back, Bool.not_false, insertWhere_last]
    rfl
  refine ⟨⟨consistent, ?_⟩, last⟩
  intro other member
  rw [LinkedList.values, last, List.map_append] at member
  rcases List.mem_append.mp member with old | new
  · exact all.keys other old
  · rw [List.mem_singleton.mp new, keyed]
    exact ungrouped

theorem AllUngrouped.erase (all : g.AllUngrouped keyOf) {it : Iterator} {value : Value}
    (found : g.list.value? it = some value) {g' : GroupedList Group Value} {next : Iterator}
    (erased : g.erase (keyOf value) it = some (g', next)) : g'.AllUngrouped keyOf := by
  have ungrouped := all.keys value (value?_mem found)
  obtain ⟨shorter, erased', consistent, _⟩ := all.consistent.erase unordered_strictWeak found
  rw [erase_withCompare ungrouped, erased] at erased'
  have same : g'.withCompare unordered = shorter := by
    simpa using congrArg (Option.map Prod.fst) erased'
  constructor
  · rw [same]
    exact consistent
  · intro other member
    rw [(erase_some erased).1] at member
    exact all.keys other ((List.filter_sublist.map Prod.snd).subset member)

end GroupedList

end Signals2
