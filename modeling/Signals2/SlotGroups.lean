/-
The slot list of a signal: one linked list holding every group, and a map from
each group key to the first list node of its group.

The map is built with a comparison object of its own.  The constructor that
receives the user's comparison stores it next to the map, so the two are
separate fields here: `mapCompare` orders the map and is what its bounds use,
`groupKeyCompare` is what the equivalence test of this file uses.
-/

import Signals2.Library.OrderedInsertion
import Signals2.Library.LinkedLists
import Signals2.Library.SortedMaps

namespace Signals2

open LinkedLists

inductive SlotMetaGroup where
  | frontUngroupedSlots
  | groupedSlots
  | backUngroupedSlots
deriving DecidableEq, Repr

/-- The value of the enumerator. -/
def SlotMetaGroup.rank : SlotMetaGroup → Nat
  | .frontUngroupedSlots => 0
  | .groupedSlots => 1
  | .backUngroupedSlots => 2

/-- The pair of a meta group and an optional group, with the option engaged
exactly for grouped slots. -/
inductive GroupKey (Group : Type) where
  | frontUngroupedSlots
  | groupedSlots (group : Group)
  | backUngroupedSlots
deriving DecidableEq, Repr

def GroupKey.first {Group : Type} : GroupKey Group → SlotMetaGroup
  | .frontUngroupedSlots => .frontUngroupedSlots
  | .groupedSlots _ => .groupedSlots
  | .backUngroupedSlots => .backUngroupedSlots

/-- `group_key_less::operator()`. -/
def groupKeyLess {Group : Type} (groupCompare : Group → Group → Bool)
    (key1 key2 : GroupKey Group) : Bool :=
  if key1.first ≠ key2.first then key1.first.rank < key2.first.rank
  else
    match key1, key2 with
    | .groupedSlots group1, .groupedSlots group2 => groupCompare group1 group2
    | _, _ => false

structure GroupedList (Group Value : Type) where
  list : LinkedList Value
  groupMap : List (GroupKey Group × Iterator)
  mapCompare : Group → Group → Bool
  groupKeyCompare : Group → Group → Bool

namespace GroupedList

variable {Group Value : Type}

/-- The constructor from a comparison: the map is default-constructed, so its
comparison is the default-constructed one. -/
def construct (name : Nat) (defaultCompare groupCompare : Group → Group → Bool) :
    GroupedList Group Value :=
  { list := LinkedList.empty name
    groupMap := []
    mapCompare := defaultCompare
    groupKeyCompare := groupCompare }

/-- `get_list_iterator`, for a map iterator given by its position. -/
def getListIterator (g : GroupedList Group Value) (mapIt : Nat) : Iterator :=
  match g.groupMap[mapIt]? with
  | none => g.list.past
  | some entry => entry.2

/-- The inner loop of the copy constructor: both iterators advance until the
one into the source list reaches the next group head.  The bound on the number
of rounds is the length of the source list. -/
def advanceTogether (otherList thisList : LinkedList Value) (otherNext : Iterator) :
    Nat → Iterator → Iterator → Iterator
  | 0, _, thisIt => thisIt
  | rounds + 1, otherIt, thisIt =>
      if otherIt = otherNext then thisIt
      else advanceTogether otherList thisList otherNext rounds
        (otherList.next otherIt) (thisList.next thisIt)

/-- `get_list_iterator`, for a map iterator given by the entries from it on. -/
def iteratorOfRest (list : LinkedList Value) :
    List (GroupKey Group × Iterator) → Iterator
  | [] => list.past
  | entry :: _ => entry.2

/-- The outer loop of the copy constructor, over the entries of the two maps. -/
def fixUpMap (otherList thisList : LinkedList Value) :
    List (GroupKey Group × Iterator) → Iterator → List (GroupKey Group × Iterator)
  | [], _ => []
  | entry :: rest, thisIt =>
      (entry.1, thisIt) ::
        fixUpMap otherList thisList rest
          (advanceTogether otherList thisList (iteratorOfRest otherList rest)
            otherList.nodes.length entry.2 thisIt)

/-- The copy constructor, placing the copied list at `name`. -/
def copy (other : GroupedList Group Value) (name : Nat) : GroupedList Group Value :=
  let thisList := other.list.copyAs name
  { other with
    list := thisList
    groupMap := fixUpMap other.list thisList other.groupMap thisList.begin }

def begin (g : GroupedList Group Value) : Iterator := g.list.begin

def past (g : GroupedList Group Value) : Iterator := g.list.past

def lowerBound (g : GroupedList Group Value) (key : GroupKey Group) : Iterator :=
  g.getListIterator
    (SortedMaps.lowerBound (groupKeyLess g.mapCompare) g.groupMap key)

def upperBound (g : GroupedList Group Value) (key : GroupKey Group) : Iterator :=
  g.getListIterator
    (SortedMaps.upperBound (groupKeyLess g.mapCompare) g.groupMap key)

def weaklyEquivalent (g : GroupedList Group Value) (arg1 arg2 : GroupKey Group) : Bool :=
  if groupKeyLess g.groupKeyCompare arg1 arg2 then false
  else if groupKeyLess g.groupKeyCompare arg2 arg1 then false
  else true

/-- The part of `m_insert` after the list insertion. -/
def mInsertMap (g : GroupedList Group Value) (mapIt : Nat) (key : GroupKey Group)
    (newIt : Iterator) : List (GroupKey Group × Iterator) :=
  let erased := match g.groupMap[mapIt]? with
    | none => g.groupMap
    | some entry =>
        if g.weaklyEquivalent key entry.1 then SortedMaps.eraseAt g.groupMap mapIt
        else g.groupMap
  match erased[SortedMaps.lowerBound (groupKeyLess g.mapCompare) erased key]? with
  | none => SortedMaps.insertEntry (groupKeyLess g.mapCompare) erased (key, newIt)
  | some entry =>
      if g.weaklyEquivalent entry.1 key = false then
        SortedMaps.insertEntry (groupKeyLess g.mapCompare) erased (key, newIt)
      else erased

def mInsert (g : GroupedList Group Value) (mapIt : Nat) (key : GroupKey Group)
    (value : Value) : GroupedList Group Value :=
  { g with
    list := g.list.insert (g.getListIterator mapIt) value
    groupMap := g.mInsertMap mapIt key g.list.upcoming }

def pushFront (g : GroupedList Group Value) (key : GroupKey Group) (value : Value) :
    GroupedList Group Value :=
  let mapIt :=
    if key.first = .frontUngroupedSlots then 0
    else SortedMaps.lowerBound (groupKeyLess g.mapCompare) g.groupMap key
  g.mInsert mapIt key value

def pushBack (g : GroupedList Group Value) (key : GroupKey Group) (value : Value) :
    GroupedList Group Value :=
  let mapIt :=
    if key.first = .backUngroupedSlots then g.groupMap.length
    else SortedMaps.upperBound (groupKeyLess g.mapCompare) g.groupMap key
  g.mInsert mapIt key value

/-- `erase(key, it)`; `none` when one of its three assertions fails. -/
def erase (g : GroupedList Group Value) (key : GroupKey Group) (it : Iterator) :
    Option (GroupedList Group Value × Iterator) :=
  if it = g.list.past then none
  else
    let less := groupKeyLess g.mapCompare
    let mapIt := SortedMaps.lowerBound less g.groupMap key
    match g.groupMap[mapIt]? with
    | none => none
    | some entry =>
        if g.weaklyEquivalent entry.1 key = false then none
        else
          let next := g.list.next it
          let groupMap :=
            if entry.2 = it then
              if next ≠ g.upperBound key then
                SortedMaps.assign less g.groupMap key next
              else SortedMaps.eraseAt g.groupMap mapIt
            else g.groupMap
          some ({ g with list := g.list.erase it, groupMap := groupMap }, next)

/-- `erase(key)`.  The bound on the number of erasures is the length of the list. -/
def eraseKey (g : GroupedList Group Value) (key : GroupKey Group) : GroupedList Group Value :=
  let mapIt := SortedMaps.lowerBound (groupKeyLess g.mapCompare) g.groupMap key
  let beginListIt := g.getListIterator mapIt
  let endListIt := g.upperBound key
  if beginListIt ≠ endListIt then
    { g with
      list := LinkedList.eraseRange endListIt g.list.nodes.length g.list beginListIt
      groupMap := SortedMaps.eraseAt g.groupMap mapIt }
  else g

def clear (g : GroupedList Group Value) : GroupedList Group Value :=
  { g with list := g.list.clear, groupMap := [] }

/-- Whatever the comparisons say, an erasure that meets the assertions removes the
node from the list and returns its successor. -/
theorem erase_some {g g' : GroupedList Group Value} {key : GroupKey Group} {it next : Iterator}
    (erased : g.erase key it = some (g', next)) :
    g'.list = g.list.erase it ∧ next = g.list.next it := by
  simp only [erase] at erased
  split at erased
  · contradiction
  · split at erased
    · contradiction
    · split at erased
      · contradiction
      · cases erased
        exact ⟨rfl, rfl⟩

@[simp] theorem pushBack_name (g : GroupedList Group Value) (key : GroupKey Group)
    (value : Value) : (g.pushBack key value).list.name = g.list.name := rfl

@[simp] theorem pushFront_name (g : GroupedList Group Value) (key : GroupKey Group)
    (value : Value) : (g.pushFront key value).list.name = g.list.name := rfl

@[simp] theorem copy_name (g : GroupedList Group Value) (name : Nat) :
    (g.copy name).list.name = name := rfl

@[simp] theorem copy_nodes (g : GroupedList Group Value) (name : Nat) :
    (g.copy name).list.nodes = g.list.nodes := rfl

end GroupedList

/-! ### The group key order inherits the group order -/

variable {Group : Type} {groupCompare : Group → Group → Bool}

open OrderedInsertion

theorem groupKeyLess_irrefl (order : StrictWeak groupCompare) (key : GroupKey Group) :
    groupKeyLess groupCompare key key = false := by
  cases key with
  | frontUngroupedSlots => rfl
  | groupedSlots group => simpa [groupKeyLess] using order.not_self group
  | backUngroupedSlots => rfl

theorem groupKeyLess_trans (order : StrictWeak groupCompare) {key1 key2 key3 : GroupKey Group}
    (left : groupKeyLess groupCompare key1 key2 = true)
    (right : groupKeyLess groupCompare key2 key3 = true) :
    groupKeyLess groupCompare key1 key3 = true := by
  cases key1 <;> cases key2 <;> cases key3 <;>
    simp [groupKeyLess, GroupKey.first, SlotMetaGroup.rank] at left right ⊢
  exact order.chain left right

theorem groupKeyLess_incomp (order : StrictWeak groupCompare) {key1 key2 key3 : GroupKey Group}
    (left : ¬ groupKeyLess groupCompare key1 key2 = true ∧
      ¬ groupKeyLess groupCompare key2 key1 = true)
    (right : ¬ groupKeyLess groupCompare key2 key3 = true ∧
      ¬ groupKeyLess groupCompare key3 key2 = true) :
    ¬ groupKeyLess groupCompare key1 key3 = true ∧
      ¬ groupKeyLess groupCompare key3 key1 = true := by
  cases key1 <;> cases key2 <;> cases key3 <;>
    simp [groupKeyLess, GroupKey.first, SlotMetaGroup.rank] at left right ⊢
  exact ⟨order.notLess_trans left.1 right.1, order.notLess_trans right.2 left.2⟩

theorem groupKeyLess_strictWeak (order : StrictWeak groupCompare) :
    StrictWeak (groupKeyLess groupCompare) where
  irrefl key := by simp [groupKeyLess_irrefl order key]
  trans _ _ _ left right := groupKeyLess_trans order left right
  incomp_trans _ _ _ left right := groupKeyLess_incomp order left right

theorem natLess_strictWeak : StrictWeak fun a b : Nat => decide (a < b) where
  irrefl a less := by simp at less
  trans a b c left right := by
    simp only [decide_eq_true_eq] at left right ⊢
    omega
  incomp_trans a b c left right := by
    simp only [decide_eq_true_eq] at left right ⊢
    omega

end Signals2
