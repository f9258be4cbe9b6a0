/-
What the group map of a slot list means: the list is a sequence of nonempty
blocks, one for each group class, in strictly increasing key order, and the map
holds each block's key with an iterator to its first node.

Every operation is described by its effect on the blocks.  The effect on the
plain node sequence, which is all that callers use, is read off from there.
-/

import Signals2.SlotGroups

namespace Signals2

open LinkedLists OrderedInsertion

variable {Group Value : Type}

/-- A nonempty run of nodes of one group class, with the key the map has for it. -/
structure Block (Group Value : Type) where
  key : GroupKey Group
  head : Nat × Value
  rest : List (Nat × Value)

namespace Block

def nodes (block : Block Group Value) : List (Nat × Value) := block.head :: block.rest

def entry (name : Nat) (block : Block Group Value) : GroupKey Group × Iterator :=
  (block.key, { owner := name, node := some block.head.1 })

end Block

def allNodes (blocks : List (Block Group Value)) : List (Nat × Value) :=
  blocks.flatMap Block.nodes

@[simp] theorem allNodes_nil : allNodes ([] : List (Block Group Value)) = [] := rfl

@[simp] theorem allNodes_cons (block : Block Group Value) (rest : List (Block Group Value)) :
    allNodes (block :: rest) = block.nodes ++ allNodes rest := rfl

@[simp] theorem allNodes_append (first second : List (Block Group Value)) :
    allNodes (first ++ second) = allNodes first ++ allNodes second :=
  List.flatMap_append

/-- Neither key is below the other. -/
def Equivalent (compare : Group → Group → Bool) (key1 key2 : GroupKey Group) : Prop :=
  groupKeyLess compare key1 key2 = false ∧ groupKeyLess compare key2 key1 = false

structure BlocksOrdered (compare : Group → Group → Bool) (keyOf : Value → GroupKey Group)
    (blocks : List (Block Group Value)) : Prop where
  increasing : blocks.Pairwise fun earlier later =>
    groupKeyLess compare earlier.key later.key = true
  keyed : ∀ block ∈ blocks, ∀ node ∈ block.nodes,
    Equivalent compare (keyOf node.2) block.key

structure GroupedList.Represents (g : GroupedList Group Value)
    (compare : Group → Group → Bool) (keyOf : Value → GroupKey Group)
    (blocks : List (Block Group Value)) : Prop where
  mapCompare : g.mapCompare = compare
  groupKeyCompare : g.groupKeyCompare = compare
  nodes : g.list.nodes = allNodes blocks
  groupMap : g.groupMap = blocks.map (Block.entry g.list.name)
  ordered : BlocksOrdered compare keyOf blocks

/-- The list/group-map consistency of a slot list. -/
def GroupedList.Consistent (g : GroupedList Group Value)
    (compare : Group → Group → Bool) (keyOf : Value → GroupKey Group) : Prop :=
  ∃ blocks, g.Represents compare keyOf blocks

variable {compare : Group → Group → Bool} {keyOf : Value → GroupKey Group}

theorem Equivalent.symm {key1 key2 : GroupKey Group} (same : Equivalent compare key1 key2) :
    Equivalent compare key2 key1 := ⟨same.2, same.1⟩

theorem GroupedList.construct_consistent (name : Nat) (compare : Group → Group → Bool)
    (keyOf : Value → GroupKey Group) :
    (GroupedList.construct name compare compare).Consistent compare keyOf :=
  ⟨[], rfl, rfl, rfl, rfl, List.Pairwise.nil, by intro block member; cases member⟩

theorem BlocksOrdered.sub {blocks kept : List (Block Group Value)}
    (ordered : BlocksOrdered compare keyOf blocks) (sub : kept.Sublist blocks) :
    BlocksOrdered compare keyOf kept where
  increasing := ordered.increasing.sublist sub
  keyed block member := ordered.keyed block (sub.subset member)

section Order

variable (order : StrictWeak compare)

include order

private theorem key_less_of_block {blocks : List (Block Group Value)}
    (ordered : BlocksOrdered compare keyOf blocks) {block : Block Group Value}
    (member : block ∈ blocks) {node : Nat × Value} (inside : node ∈ block.nodes)
    {bound : GroupKey Group} (below : groupKeyLess compare block.key bound = true) :
    groupKeyLess compare (keyOf node.2) bound = true :=
  (groupKeyLess_strictWeak order).less_of_notLess_of_less
    (ordered.keyed block member node inside).2 below

private theorem block_less_key {blocks : List (Block Group Value)}
    (ordered : BlocksOrdered compare keyOf blocks) {block : Block Group Value}
    (member : block ∈ blocks) {node : Nat × Value} (inside : node ∈ block.nodes)
    {bound : GroupKey Group} (above : groupKeyLess compare bound block.key = true) :
    groupKeyLess compare bound (keyOf node.2) = true :=
  (groupKeyLess_strictWeak order).less_of_less_of_notLess above
    (ordered.keyed block member node inside).1

/-- The list is sorted by key. -/
theorem allNodes_sorted {blocks : List (Block Group Value)}
    (ordered : BlocksOrdered compare keyOf blocks) :
    Sorted (groupKeyLess compare) (fun node : Nat × Value => keyOf node.2)
      (allNodes blocks) := by
  have weak := groupKeyLess_strictWeak order
  induction blocks with
  | nil => exact List.Pairwise.nil
  | cons block rest ih =>
      have tail := ih (ordered.sub (List.sublist_cons_self block rest))
      have blockMember : block ∈ block :: rest := List.mem_cons_self
      refine List.pairwise_append.mpr ⟨?_, tail, ?_⟩
      · refine List.pairwise_of_forall_mem_list ?_
        intro earlier inEarlier later inLater
        exact weak.notLess_trans (ordered.keyed block blockMember later inLater).1
          (ordered.keyed block blockMember earlier inEarlier).2
      · intro earlier inEarlier later inLater
        obtain ⟨other, otherMember, inOther⟩ := List.mem_flatMap.mp inLater
        have above : groupKeyLess compare block.key other.key = true :=
          (List.pairwise_cons.mp ordered.increasing).1 other otherMember
        have below := key_less_of_block order ordered blockMember inEarlier above
        exact weak.not_back (block_less_key order ordered
          (List.mem_cons_of_mem block otherMember) inOther below)

end Order

/-! ### Positions in the map -/

theorem length_entries (name : Nat) (blocks : List (Block Group Value)) :
    (blocks.map (Block.entry name)).length = blocks.length :=
  List.length_map _

private theorem getElem?_entries (name : Nat) (before after : List (Block Group Value)) :
    ((before ++ after).map (Block.entry name))[before.length]? =
      (after.map (Block.entry name)).head? := by
  rw [List.map_append, ← length_entries name before]
  exact SortedMaps.getElem?_split

theorem GroupedList.Represents.getListIterator {g : GroupedList Group Value}
    {before after : List (Block Group Value)}
    (rep : g.Represents compare keyOf (before ++ after)) :
    g.getListIterator before.length = g.list.iteratorTo (allNodes after) := by
  unfold GroupedList.getListIterator
  rw [rep.groupMap, getElem?_entries]
  cases after with
  | nil => rfl
  | cons block rest => rfl

theorem GroupedList.Represents.weaklyEquivalent {g : GroupedList Group Value}
    {blocks : List (Block Group Value)} (rep : g.Represents compare keyOf blocks)
    (key1 key2 : GroupKey Group) :
    g.weaklyEquivalent key1 key2 = true ↔ Equivalent compare key1 key2 := by
  unfold GroupedList.weaklyEquivalent Equivalent
  rw [rep.groupKeyCompare]
  cases groupKeyLess compare key1 key2 <;> cases groupKeyLess compare key2 key1 <;> simp

/-- The blocks below a key, and the others: where `lower_bound` stands. -/
private theorem head_entries {name : Nat} {blocks : List (Block Group Value)}
    {entry : GroupKey Group × Iterator}
    (first : entry ∈ (blocks.map (Block.entry name)).head?) :
    ∃ block, blocks.head? = some block ∧ Block.entry name block = entry := by
  rw [List.head?_map] at first
  exact Option.map_eq_some_iff.mp first

theorem GroupedList.Represents.mapLowerBound {g : GroupedList Group Value}
    {before after : List (Block Group Value)} {key : GroupKey Group}
    (rep : g.Represents compare keyOf (before ++ after))
    (left : ∀ block ∈ before, groupKeyLess compare block.key key = true)
    (right : ∀ block ∈ after.head?, groupKeyLess compare block.key key = false) :
    SortedMaps.lowerBound (groupKeyLess g.mapCompare) g.groupMap key = before.length := by
  rw [rep.mapCompare, rep.groupMap, List.map_append,
    SortedMaps.lowerBound_split, List.length_map]
  · intro entry member
    obtain ⟨block, inBefore, rfl⟩ := List.mem_map.mp member
    exact left block inBefore
  · intro entry first
    obtain ⟨block, isHead, rfl⟩ := head_entries first
    exact right block isHead

theorem GroupedList.Represents.mapUpperBound {g : GroupedList Group Value}
    {before after : List (Block Group Value)} {key : GroupKey Group}
    (rep : g.Represents compare keyOf (before ++ after))
    (left : ∀ block ∈ before, groupKeyLess compare key block.key = false)
    (right : ∀ block ∈ after.head?, groupKeyLess compare key block.key = true) :
    SortedMaps.upperBound (groupKeyLess g.mapCompare) g.groupMap key = before.length := by
  rw [rep.mapCompare, rep.groupMap, List.map_append,
    SortedMaps.upperBound_split, List.length_map]
  · intro entry member
    obtain ⟨block, inBefore, rfl⟩ := List.mem_map.mp member
    exact left block inBefore
  · intro entry first
    obtain ⟨block, isHead, rfl⟩ := head_entries first
    exact right block isHead

/-- A key cuts the blocks into those below it, at most one equivalent to it,
and those above it. -/
theorem BlocksOrdered.split_at (order : StrictWeak compare)
    {blocks : List (Block Group Value)} (ordered : BlocksOrdered compare keyOf blocks)
    (key : GroupKey Group) :
    ∃ before same after, blocks = before ++ same ++ after ∧
      (∀ block ∈ before, groupKeyLess compare block.key key = true) ∧
      (∀ block ∈ after, groupKeyLess compare key block.key = true) ∧
      (same = [] ∨ ∃ block, same = [block] ∧ Equivalent compare block.key key) := by
  have weak := groupKeyLess_strictWeak order
  induction blocks with
  | nil => exact ⟨[], [], [], rfl, by simp, by simp, .inl rfl⟩
  | cons block rest ih =>
      have above := (List.pairwise_cons.mp ordered.increasing).1
      cases below : groupKeyLess compare block.key key with
      | true =>
          obtain ⟨before, same, after, split, left, right, middle⟩ :=
            ih (ordered.sub (List.sublist_cons_self block rest))
          refine ⟨block :: before, same, after, by rw [split]; rfl, ?_, right, middle⟩
          intro other member
          rcases List.mem_cons.mp member with rfl | inBefore
          · exact below
          · exact left other inBefore
      | false =>
          cases beyond : groupKeyLess compare key block.key with
          | true =>
              refine ⟨[], [], block :: rest, rfl, by simp, ?_, .inl rfl⟩
              intro other member
              rcases List.mem_cons.mp member with rfl | inRest
              · exact beyond
              · exact weak.chain beyond (above other inRest)
          | false =>
              refine ⟨[], [block], rest, rfl, by simp, ?_, .inr ⟨block, rfl, below, beyond⟩⟩
              intro other member
              exact weak.less_of_notLess_of_less below (above other member)

section Operations

variable (order : StrictWeak compare)
variable {g : GroupedList Group Value} {before after : List (Block Group Value)}
variable {key : GroupKey Group} {value : Value}

include order

/-- `upper_bound` and `lower_bound` delimit the class of the key. -/
theorem GroupedList.Represents.bounds {same : List (Block Group Value)}
    (rep : g.Represents compare keyOf (before ++ same ++ after))
    (left : ∀ block ∈ before, groupKeyLess compare block.key key = true)
    (right : ∀ block ∈ after, groupKeyLess compare key block.key = true)
    (middle : ∀ block ∈ same, Equivalent compare block.key key) :
    g.lowerBound key = g.list.iteratorTo (allNodes (same ++ after)) ∧
      g.upperBound key = g.list.iteratorTo (allNodes after) := by
  have weak := groupKeyLess_strictWeak order
  constructor
  · have rep' : g.Represents compare keyOf (before ++ (same ++ after)) := by
      rwa [← List.append_assoc]
    have bound := rep'.mapLowerBound left (by
      intro block first
      rcases List.mem_append.mp (List.mem_of_head? first) with inSame | inAfter
      · exact (middle block inSame).1
      · exact weak.not_back (right block inAfter))
    unfold GroupedList.lowerBound
    rw [bound, rep'.getListIterator]
  · have bound := rep.mapUpperBound (by
      intro block member
      rcases List.mem_append.mp member with inBefore | inSame
      · exact weak.not_back (left block inBefore)
      · exact (middle block inSame).2)
      (fun block first => right block (List.mem_of_head? first))
    unfold GroupedList.upperBound
    rw [bound, rep.getListIterator]

omit order in
private theorem insert_at (rep : g.Represents compare keyOf (before ++ after))
    (value : Value) :
    (g.list.insert (g.getListIterator before.length) value).nodes =
      allNodes before ++ (g.list.fresh, value) :: allNodes after := by
  rw [rep.getListIterator]
  exact insert_nodes (by rw [rep.nodes, allNodes_append]) value

private theorem insertEntry_blocks (name : Nat) (it : Iterator)
    (left : ∀ block ∈ before, groupKeyLess compare block.key key = true)
    (right : ∀ block ∈ after, groupKeyLess compare key block.key = true) :
    SortedMaps.insertEntry (groupKeyLess compare) ((before ++ after).map (Block.entry name))
        (key, it) =
      before.map (Block.entry name) ++ (key, it) :: after.map (Block.entry name) := by
  rw [List.map_append]
  refine SortedMaps.insertEntry_split ?_ ?_ ?_
  · intro entry member
    obtain ⟨block, inBefore, rfl⟩ := List.mem_map.mp member
    exact left block inBefore
  · intro entry first
    obtain ⟨block, isHead, rfl⟩ := head_entries first
    exact (groupKeyLess_strictWeak order).not_back (right block (List.mem_of_head? isHead))
  · intro entry first
    obtain ⟨block, isHead, rfl⟩ := head_entries first
    exact right block (List.mem_of_head? isHead)

omit order in
private theorem not_weaklyEquivalent (rep : g.Represents compare keyOf (before ++ after))
    {key1 key2 : GroupKey Group} (below : groupKeyLess compare key1 key2 = true) :
    g.weaklyEquivalent key1 key2 = false ∧ g.weaklyEquivalent key2 key1 = false := by
  constructor
  · by_contra same
    have both := (rep.weaklyEquivalent key1 key2).mp (by simpa using same)
    rw [both.1] at below
    contradiction
  · by_contra same
    have both := (rep.weaklyEquivalent key2 key1).mp (by simpa using same)
    rw [both.2] at below
    contradiction

/-- With no equivalent entry in the map, the new node heads a class. -/
private theorem mInsertMap_fresh (rep : g.Represents compare keyOf (before ++ after))
    (it : Iterator)
    (left : ∀ block ∈ before, groupKeyLess compare block.key key = true)
    (right : ∀ block ∈ after, groupKeyLess compare key block.key = true) :
    g.mInsertMap before.length key it =
      before.map (Block.entry g.list.name) ++
        (key, it) :: after.map (Block.entry g.list.name) := by
  have lower := rep.mapLowerBound left
    (fun block first =>
      (groupKeyLess_strictWeak order).not_back (right block (List.mem_of_head? first)))
  have atPosition : g.groupMap[before.length]? =
      (after.map (Block.entry g.list.name)).head? := by
    rw [rep.groupMap, getElem?_entries]
  have inserted : SortedMaps.insertEntry (groupKeyLess g.mapCompare) g.groupMap (key, it) =
      before.map (Block.entry g.list.name) ++
        (key, it) :: after.map (Block.entry g.list.name) := by
    rw [rep.mapCompare, rep.groupMap, insertEntry_blocks order g.list.name it left right]
  cases after with
  | nil =>
      simp only [List.map_nil, List.head?_nil] at atPosition
      simp only [GroupedList.mInsertMap, atPosition, lower, inserted, List.map_nil]
  | cons block rest =>
      obtain ⟨notKey, keyNot⟩ := not_weaklyEquivalent rep (right block List.mem_cons_self)
      simp only [List.map_cons, List.head?_cons, Block.entry] at atPosition
      simp only [GroupedList.mInsertMap, atPosition, notKey, Bool.false_eq_true,
        if_false, lower, keyNot, if_true, inserted, List.map_cons, Block.entry]

/-- With an equivalent entry at the insertion position, the new node takes over
as head of its class. -/
private theorem mInsertMap_front {block : Block Group Value}
    (rep : g.Represents compare keyOf (before ++ block :: after)) (it : Iterator)
    (left : ∀ other ∈ before, groupKeyLess compare other.key key = true)
    (right : ∀ other ∈ after, groupKeyLess compare key other.key = true)
    (same : Equivalent compare block.key key) :
    g.mInsertMap before.length key it =
      before.map (Block.entry g.list.name) ++
        (key, it) :: after.map (Block.entry g.list.name) := by
  have weak := groupKeyLess_strictWeak order
  have atPosition : g.groupMap[before.length]? = some (block.entry g.list.name) := by
    rw [rep.groupMap, getElem?_entries]
    rfl
  have equivalent : g.weaklyEquivalent key block.key = true :=
    (rep.weaklyEquivalent key block.key).mpr same.symm
  have erased : SortedMaps.eraseAt g.groupMap before.length =
      (before ++ after).map (Block.entry g.list.name) := by
    rw [rep.groupMap, List.map_append, List.map_append, List.map_cons,
      ← length_entries g.list.name before]
    exact SortedMaps.eraseAt_split _
  have lower : SortedMaps.lowerBound (groupKeyLess compare)
      ((before ++ after).map (Block.entry g.list.name)) key = before.length := by
    rw [List.map_append, SortedMaps.lowerBound_split, List.length_map]
    · intro entry member
      obtain ⟨other, inBefore, rfl⟩ := List.mem_map.mp member
      exact left other inBefore
    · intro entry first
      rw [List.head?_map] at first
      obtain ⟨other, isHead, rfl⟩ := Option.map_eq_some_iff.mp first
      exact weak.not_back (right other (List.mem_of_head? isHead))
  have inserted := insertEntry_blocks order g.list.name it left right
  simp only [GroupedList.mInsertMap, atPosition, Block.entry, equivalent, if_true, erased,
    rep.mapCompare]
  rw [lower, getElem?_entries]
  cases after with
  | nil => exact inserted
  | cons next rest =>
      obtain ⟨_, keyNot⟩ := not_weaklyEquivalent rep
        (right next List.mem_cons_self)
      simp only [List.map_cons, List.head?_cons, Block.entry, keyNot, if_true]
      exact inserted

omit order in
/-- With an equivalent entry just before the insertion position, the map stays. -/
private theorem mInsertMap_back {block : Block Group Value}
    (rep : g.Represents compare keyOf (before ++ [block] ++ after)) (it : Iterator)
    (left : ∀ other ∈ before, groupKeyLess compare other.key key = true)
    (right : ∀ other ∈ after, groupKeyLess compare key other.key = true)
    (same : Equivalent compare block.key key) :
    g.mInsertMap (before ++ [block]).length key it = g.groupMap := by
  have rep' : g.Represents compare keyOf (before ++ block :: after) := by
    simpa using rep
  have lower := rep'.mapLowerBound left (by
    intro other first
    cases first
    exact same.1)
  have atLower : g.groupMap[before.length]? = some (block.entry g.list.name) := by
    rw [rep'.groupMap, getElem?_entries]
    rfl
  have atPosition : g.groupMap[(before ++ [block]).length]? =
      (after.map (Block.entry g.list.name)).head? := by
    rw [rep.groupMap, getElem?_entries]
  have equivalent : g.weaklyEquivalent block.key key = true :=
    (rep.weaklyEquivalent block.key key).mpr same
  cases after with
  | nil =>
      simp only [List.map_nil, List.head?_nil] at atPosition
      simp only [GroupedList.mInsertMap, atPosition, lower, atLower, Block.entry, equivalent,
        Bool.true_eq_false, if_false]
  | cons next rest =>
      obtain ⟨notKey, _⟩ := not_weaklyEquivalent rep (right next List.mem_cons_self)
      simp only [List.map_cons, List.head?_cons, Block.entry] at atPosition
      simp only [GroupedList.mInsertMap, atPosition, notKey, Bool.false_eq_true, if_false,
        lower, atLower, Block.entry, equivalent, Bool.true_eq_false]

omit order in
private theorem ordered_insert {block : Block Group Value}
    (ordered : BlocksOrdered compare keyOf (before ++ after))
    (left : ∀ other ∈ before, groupKeyLess compare other.key block.key = true)
    (right : ∀ other ∈ after, groupKeyLess compare block.key other.key = true)
    (keyed : ∀ node ∈ block.nodes, Equivalent compare (keyOf node.2) block.key) :
    BlocksOrdered compare keyOf (before ++ block :: after) := by
  constructor
  · have increasing := List.pairwise_append.mp ordered.increasing
    refine List.pairwise_append.mpr ⟨increasing.1,
      List.pairwise_cons.mpr ⟨right, increasing.2.1⟩, ?_⟩
    intro earlier inBefore later inLater
    rcases List.mem_cons.mp inLater with rfl | inAfter
    · exact left earlier inBefore
    · exact increasing.2.2 earlier inBefore later inAfter
  · intro other member node inside
    rcases List.mem_append.mp member with inBefore | inRest
    · exact ordered.keyed other (List.mem_append_left _ inBefore) node inside
    · rcases List.mem_cons.mp inRest with rfl | inAfter
      · exact keyed node inside
      · exact ordered.keyed other (List.mem_append_right _ inAfter) node inside

theorem GroupedList.Represents.mInsert_fresh
    (rep : g.Represents compare keyOf (before ++ after))
    (left : ∀ block ∈ before, groupKeyLess compare block.key key = true)
    (right : ∀ block ∈ after, groupKeyLess compare key block.key = true)
    (keyed : Equivalent compare (keyOf value) key) :
    (g.mInsert before.length key value).Represents compare keyOf
      (before ++ ⟨key, (g.list.fresh, value), []⟩ :: after) := by
  refine ⟨rep.mapCompare, rep.groupKeyCompare, ?_, ?_, ?_⟩
  · rw [allNodes_append, allNodes_cons]
    exact insert_at rep value
  · rw [List.map_append, List.map_cons]
    exact mInsertMap_fresh order rep g.list.upcoming left right
  · refine ordered_insert rep.ordered left right ?_
    intro node inside
    rcases List.mem_cons.mp inside with rfl | impossible
    · exact keyed
    · cases impossible

theorem GroupedList.Represents.mInsert_front {block : Block Group Value}
    (rep : g.Represents compare keyOf (before ++ block :: after))
    (left : ∀ other ∈ before, groupKeyLess compare other.key key = true)
    (right : ∀ other ∈ after, groupKeyLess compare key other.key = true)
    (same : Equivalent compare block.key key)
    (keyed : Equivalent compare (keyOf value) key) :
    (g.mInsert before.length key value).Represents compare keyOf
      (before ++ ⟨key, (g.list.fresh, value), block.nodes⟩ :: after) := by
  have weak := groupKeyLess_strictWeak order
  refine ⟨rep.mapCompare, rep.groupKeyCompare, ?_, ?_, ?_⟩
  · rw [allNodes_append, allNodes_cons]
    exact insert_at rep value
  · rw [List.map_append, List.map_cons]
    exact mInsertMap_front order rep g.list.upcoming left right same
  · refine ordered_insert (rep.ordered.sub ?_) left right ?_
    · exact List.Sublist.append_left (List.sublist_cons_self block after) before
    · intro node inside
      rcases List.mem_cons.mp inside with rfl | inBlock
      · exact keyed
      · have own := rep.ordered.keyed block
          (List.mem_append_right before List.mem_cons_self) node inBlock
        exact ⟨weak.notLess_trans own.1 same.1, weak.notLess_trans same.2 own.2⟩

theorem GroupedList.Represents.mInsert_back {block : Block Group Value}
    (rep : g.Represents compare keyOf (before ++ [block] ++ after))
    (left : ∀ other ∈ before, groupKeyLess compare other.key key = true)
    (right : ∀ other ∈ after, groupKeyLess compare key other.key = true)
    (same : Equivalent compare block.key key)
    (keyed : Equivalent compare (keyOf value) key) :
    (g.mInsert (before ++ [block]).length key value).Represents compare keyOf
      (before ++ ⟨block.key, block.head, block.rest ++ [(g.list.fresh, value)]⟩ :: after) := by
  have weak := groupKeyLess_strictWeak order
  have rep' : g.Represents compare keyOf (before ++ block :: after) := by simpa using rep
  refine ⟨rep.mapCompare, rep.groupKeyCompare, ?_, ?_, ?_⟩
  · have nodes := insert_at rep value
    simpa [Block.nodes, GroupedList.mInsert] using nodes
  · have unchanged : (g.mInsert (before ++ [block]).length key value).groupMap =
        g.groupMap := mInsertMap_back rep g.list.upcoming left right same
    rw [unchanged, rep'.groupMap]
    simp [Block.entry, GroupedList.mInsert]
  · have increasing := List.pairwise_append.mp rep'.ordered.increasing
    refine ordered_insert (rep'.ordered.sub ?_) ?_ ?_ ?_
    · exact List.Sublist.append_left (List.sublist_cons_self block after) before
    · intro other member
      exact increasing.2.2 other member block List.mem_cons_self
    · exact (List.pairwise_cons.mp increasing.2.1).1
    · intro node inside
      have cases : node ∈ block.nodes ∨ node = (g.list.fresh, value) := by
        simpa [Block.nodes, or_assoc] using inside
      rcases cases with inBlock | rfl
      · exact rep'.ordered.keyed block
          (List.mem_append_right before List.mem_cons_self) node inBlock
      · exact ⟨weak.notLess_trans keyed.1 same.2, weak.notLess_trans same.1 keyed.2⟩

end Operations

end Signals2
