/-
What the operations of a slot list do to its nodes, and that each keeps the
list/group-map consistency: placement by `push_front` and `push_back`, removal
by `erase`, the copy constructor, and the range that the two bounds delimit.
-/

import Signals2.SlotGroupsRepresentation

namespace Signals2

open LinkedLists OrderedInsertion

variable {Group Value : Type}
variable {compare : Group → Group → Bool} {keyOf : Value → GroupKey Group}

theorem GroupedList.Consistent.congr_keys {g : GroupedList Group Value}
    {keyOf' : Value → GroupKey Group} (consistent : g.Consistent compare keyOf)
    (same : ∀ node ∈ g.list.nodes, keyOf' node.2 = keyOf node.2) :
    g.Consistent compare keyOf' := by
  obtain ⟨blocks, rep⟩ := consistent
  refine ⟨blocks, { rep with ordered := ⟨rep.ordered.increasing, ?_⟩ }⟩
  intro block member node inside
  have inNodes : node ∈ g.list.nodes := by
    rw [rep.nodes]
    exact List.mem_flatMap.mpr ⟨block, member, inside⟩
  rw [same node inNodes]
  exact rep.ordered.keyed block member node inside

/-- The blocks of a key's class, of which there is at most one, are equivalent to it. -/
private theorem equivalent_of_class {same : List (Block Group Value)} {key : GroupKey Group}
    (middle : same = [] ∨ ∃ block, same = [block] ∧ Equivalent compare block.key key) :
    ∀ block ∈ same, Equivalent compare block.key key := by
  intro block member
  rcases middle with none | ⟨only, one, equivalent⟩
  · rw [none] at member
    cases member
  · rw [one, List.mem_singleton] at member
    exact member ▸ equivalent

/-- The new node comes before the nodes of the block that the map iterator stands on. -/
private theorem GroupedList.Represents.mInsert_nodes
    {g : GroupedList Group Value} {before after : List (Block Group Value)}
    (rep : g.Represents compare keyOf (before ++ after)) {key : GroupKey Group} {value : Value} :
    (g.mInsert before.length key value).list.nodes =
      allNodes before ++ (g.list.fresh, value) :: allNodes after := by
  change (g.list.insert (g.getListIterator before.length) value).nodes = _
  rw [rep.getListIterator]
  exact insert_nodes (by rw [rep.nodes, allNodes_append]) value

section Placement

variable (order : StrictWeak compare) {g : GroupedList Group Value}

include order

theorem GroupedList.Consistent.sorted (consistent : g.Consistent compare keyOf) :
    Sorted (groupKeyLess compare) (fun node : Nat × Value => keyOf node.2) g.list.nodes := by
  obtain ⟨blocks, rep⟩ := consistent
  rw [rep.nodes]
  exact allNodes_sorted order rep.ordered

private theorem below_of_blocks {blocks part : List (Block Group Value)}
    (ordered : BlocksOrdered compare keyOf blocks) (sub : part.Sublist blocks)
    {key : GroupKey Group}
    (below : ∀ block ∈ part, groupKeyLess compare block.key key = true) :
    ∀ node ∈ allNodes part, groupKeyLess compare (keyOf node.2) key = true := by
  intro node member
  obtain ⟨block, inPart, inside⟩ := List.mem_flatMap.mp member
  exact (groupKeyLess_strictWeak order).less_of_notLess_of_less
    (ordered.keyed block (sub.subset inPart) node inside).2 (below block inPart)

private theorem above_of_blocks {blocks part : List (Block Group Value)}
    (ordered : BlocksOrdered compare keyOf blocks) (sub : part.Sublist blocks)
    {key : GroupKey Group}
    (above : ∀ block ∈ part, groupKeyLess compare key block.key = true) :
    ∀ node ∈ allNodes part, groupKeyLess compare key (keyOf node.2) = true := by
  intro node member
  obtain ⟨block, inPart, inside⟩ := List.mem_flatMap.mp member
  exact (groupKeyLess_strictWeak order).less_of_less_of_notLess (above block inPart)
    (ordered.keyed block (sub.subset inPart) node inside).1

private theorem equivalent_of_block {blocks : List (Block Group Value)}
    (ordered : BlocksOrdered compare keyOf blocks) {block : Block Group Value}
    (member : block ∈ blocks) {key : GroupKey Group}
    (same : Equivalent compare block.key key) :
    ∀ node ∈ block.nodes, Equivalent compare (keyOf node.2) key := by
  have weak := groupKeyLess_strictWeak order
  intro node inside
  have own := ordered.keyed block member node inside
  exact ⟨weak.notLess_trans own.1 same.1, weak.notLess_trans same.2 own.2⟩

/-- A key splits the nodes into those below it, its class, and those above it,
and the map's bounds are the ends of the class. -/
theorem GroupedList.Consistent.class_range (consistent : g.Consistent compare keyOf)
    (key : GroupKey Group) :
    ∃ below same above, g.list.nodes = below ++ same ++ above ∧
      (∀ node ∈ below, groupKeyLess compare (keyOf node.2) key = true) ∧
      (∀ node ∈ same, Equivalent compare (keyOf node.2) key) ∧
      (∀ node ∈ above, groupKeyLess compare key (keyOf node.2) = true) ∧
      g.lowerBound key = g.list.iteratorTo (same ++ above) ∧
      g.upperBound key = g.list.iteratorTo above := by
  obtain ⟨blocks, rep⟩ := consistent
  obtain ⟨before, same, after, split, left, right, middle⟩ :=
    rep.ordered.split_at order key
  subst split
  have eachSame := equivalent_of_class middle
  obtain ⟨lower, upper⟩ := rep.bounds order left right eachSame
  refine ⟨allNodes before, allNodes same, allNodes after, ?_, ?_, ?_, ?_, ?_, upper⟩
  · rw [rep.nodes, allNodes_append, allNodes_append]
  · refine below_of_blocks order rep.ordered ?_ left
    rw [List.append_assoc]
    exact List.sublist_append_left before (same ++ after)
  · intro node member
    obtain ⟨block, inSame, inside⟩ := List.mem_flatMap.mp member
    refine equivalent_of_block order rep.ordered ?_ (eachSame block inSame) node inside
    exact List.mem_append_left after (List.mem_append_right before inSame)
  · exact above_of_blocks order rep.ordered (List.sublist_append_right _ after) right
  · rw [lower, allNodes_append]

/-- `push_back` places the value behind every node that is not above its key. -/
theorem GroupedList.Consistent.pushBack (consistent : g.Consistent compare keyOf)
    {key : GroupKey Group} {value : Value} (keyed : keyOf value = key) :
    (g.pushBack key value).Consistent compare keyOf ∧
      (g.pushBack key value).list.nodes =
        insertWhere (fun node => !groupKeyLess compare key (keyOf node.2))
          (g.list.fresh, value) g.list.nodes := by
  have weak := groupKeyLess_strictWeak order
  obtain ⟨blocks, rep⟩ := consistent
  obtain ⟨before, same, after, split, left, right, middle⟩ :=
    rep.ordered.split_at order key
  subst split
  have own : Equivalent compare (keyOf value) key := by
    rw [keyed]
    exact ⟨weak.not_self key, weak.not_self key⟩
  have notAbove : ∀ block ∈ before ++ same, groupKeyLess compare key block.key = false := by
    intro block member
    rcases List.mem_append.mp member with inBefore | inSame
    · exact weak.not_back (left block inBefore)
    · exact (equivalent_of_class middle block inSame).2
  -- the shortcut for the last class and the search end at the same position
  have position : g.pushBack key value = g.mInsert (before ++ same).length key value := by
    unfold GroupedList.pushBack
    split
    · rename_i isBack
      have noneAbove : after = [] := by
        cases after with
        | nil => rfl
        | cons block rest =>
            have above := right block List.mem_cons_self
            cases key with
            | backUngroupedSlots =>
                cases blockKey : block.key <;>
                  simp [blockKey, groupKeyLess, GroupKey.first, SlotMetaGroup.rank] at above
            | frontUngroupedSlots => cases isBack
            | groupedSlots group => cases isBack
      rw [rep.groupMap, noneAbove, List.length_map, List.append_nil]
    · rw [rep.mapUpperBound notAbove fun block first => right block (List.mem_of_head? first)]
  have inserted : (g.pushBack key value).list.nodes =
      insertWhere (fun node => !groupKeyLess compare key (keyOf node.2))
        (g.list.fresh, value) g.list.nodes := by
    rw [position, rep.mInsert_nodes, rep.nodes, allNodes_append (before ++ same) after, insertWhere_append]
    · intro node member
      obtain ⟨block, inPart, inside⟩ := List.mem_flatMap.mp member
      have keyOfBlock := rep.ordered.keyed block (List.mem_append_left after inPart) node inside
      simp [weak.notLess_trans (notAbove block inPart) keyOfBlock.2]
    · intro node member
      have above := above_of_blocks order rep.ordered
        (List.sublist_append_right (before ++ same) after) right node member
      simp [above]
  refine ⟨?_, inserted⟩
  rw [position]
  rcases middle with none | ⟨only, one, equivalent⟩
  · subst none
    rw [List.append_nil] at rep ⊢
    exact ⟨_, rep.mInsert_fresh order left right own⟩
  · subst one
    exact ⟨_, rep.mInsert_back order left right equivalent own⟩

/-- `push_front` places the value before every node that is not below its key. -/
theorem GroupedList.Consistent.pushFront (consistent : g.Consistent compare keyOf)
    {key : GroupKey Group} {value : Value} (keyed : keyOf value = key) :
    (g.pushFront key value).Consistent compare keyOf ∧
      (g.pushFront key value).list.nodes =
        insertWhere (fun node => groupKeyLess compare (keyOf node.2) key)
          (g.list.fresh, value) g.list.nodes := by
  have weak := groupKeyLess_strictWeak order
  obtain ⟨blocks, rep⟩ := consistent
  obtain ⟨before, same, after, split, left, right, middle⟩ :=
    rep.ordered.split_at order key
  subst split
  rw [List.append_assoc] at rep
  have own : Equivalent compare (keyOf value) key := by
    rw [keyed]
    exact ⟨weak.not_self key, weak.not_self key⟩
  have notBelow : ∀ block ∈ same ++ after, groupKeyLess compare block.key key = false := by
    intro block member
    rcases List.mem_append.mp member with inSame | inAfter
    · exact (equivalent_of_class middle block inSame).1
    · exact weak.not_back (right block inAfter)
  have position : g.pushFront key value = g.mInsert before.length key value := by
    unfold GroupedList.pushFront
    split
    · rename_i isFront
      have noneBelow : before = [] := by
        cases before with
        | nil => rfl
        | cons block rest =>
            have below := left block List.mem_cons_self
            cases key with
            | frontUngroupedSlots =>
                cases blockKey : block.key <;>
                  simp [blockKey, groupKeyLess, GroupKey.first, SlotMetaGroup.rank] at below
            | backUngroupedSlots => cases isFront
            | groupedSlots group => cases isFront
      rw [noneBelow]
      rfl
    · rw [rep.mapLowerBound left fun block first => notBelow block (List.mem_of_head? first)]
  have inserted : (g.pushFront key value).list.nodes =
      insertWhere (fun node => groupKeyLess compare (keyOf node.2) key)
        (g.list.fresh, value) g.list.nodes := by
    rw [position, rep.mInsert_nodes, rep.nodes, allNodes_append before (same ++ after), insertWhere_append]
    · exact below_of_blocks order rep.ordered
        (List.sublist_append_left before (same ++ after)) left
    · intro node member
      obtain ⟨block, inPart, inside⟩ := List.mem_flatMap.mp member
      have keyOfBlock :=
        rep.ordered.keyed block (List.mem_append_right before inPart) node inside
      exact weak.notLess_trans keyOfBlock.1 (notBelow block inPart)
  refine ⟨?_, inserted⟩
  rw [position]
  rcases middle with none | ⟨only, one, equivalent⟩
  · subst none
    rw [List.nil_append] at rep
    exact ⟨_, rep.mInsert_fresh order left right own⟩
  · subst one
    exact ⟨_, rep.mInsert_front order left right equivalent own⟩

end Placement

section Removal

variable (order : StrictWeak compare) {g : GroupedList Group Value}
variable {before after : List (Block Group Value)} {block : Block Group Value}
variable {first second : List (Nat × Value)} {node : Nat × Value}

private theorem nodes_split (rep : g.Represents compare keyOf (before ++ block :: after))
    (inBlock : block.nodes = first ++ node :: second) :
    g.list.nodes =
      (allNodes before ++ first) ++ node :: (second ++ allNodes after) := by
  rw [rep.nodes, allNodes_append, allNodes_cons, inBlock]
  simp only [List.append_assoc, List.cons_append]

private theorem replace_block {kept : Block Group Value}
    (ordered : BlocksOrdered compare keyOf (before ++ block :: after))
    (sameKey : kept.key = block.key) (sub : ∀ other ∈ kept.nodes, other ∈ block.nodes) :
    BlocksOrdered compare keyOf (before ++ kept :: after) := by
  constructor
  · have increasing := List.pairwise_append.mp ordered.increasing
    have tail := List.pairwise_cons.mp increasing.2.1
    refine List.pairwise_append.mpr ⟨increasing.1, List.pairwise_cons.mpr ⟨?_, tail.2⟩, ?_⟩
    · intro later member
      rw [sameKey]
      exact tail.1 later member
    · intro earlier inBefore later inLater
      rcases List.mem_cons.mp inLater with rfl | inAfter
      · rw [sameKey]
        exact increasing.2.2 earlier inBefore block List.mem_cons_self
      · exact increasing.2.2 earlier inBefore later (List.mem_cons_of_mem _ inAfter)
  · intro other member entry inside
    rcases List.mem_append.mp member with inBefore | inRest
    · exact ordered.keyed other (List.mem_append_left _ inBefore) entry inside
    · rcases List.mem_cons.mp inRest with rfl | inAfter
      · rw [sameKey]
        exact ordered.keyed block (List.mem_append_right _ List.mem_cons_self) entry
          (sub entry inside)
      · exact ordered.keyed other
          (List.mem_append_right _ (List.mem_cons_of_mem _ inAfter)) entry inside

include order

/-- Erasing a node under its own key passes the three assertions, returns the
following position and removes just this node. -/
theorem GroupedList.Consistent.erase (consistent : g.Consistent compare keyOf)
    {it : Iterator} {value : Value} (found : g.list.value? it = some value) :
    ∃ g', g.erase (keyOf value) it = some (g', g.list.next it) ∧
      g'.Consistent compare keyOf ∧ g'.list = g.list.erase it := by
  have weak := groupKeyLess_strictWeak order
  obtain ⟨blocks, rep⟩ := consistent
  obtain ⟨pre, name, post, split, itEq⟩ := exists_split found
  have inAll : (name, value) ∈ allNodes blocks := by
    rw [← rep.nodes, split]
    exact List.mem_append_right pre List.mem_cons_self
  obtain ⟨block, inBlocks, inside⟩ := List.mem_flatMap.mp inAll
  obtain ⟨before, after, blocksEq⟩ := List.append_of_mem inBlocks
  obtain ⟨first, second, inBlock⟩ := List.append_of_mem inside
  subst blocksEq
  have nodes := nodes_split rep inBlock
  have position : it = g.list.iteratorTo ((name, value) :: (second ++ allNodes after)) := itEq
  have same : Equivalent compare block.key (keyOf value) :=
    (rep.ordered.keyed block inBlocks (name, value) inside).symm
  have increasing := List.pairwise_append.mp rep.ordered.increasing
  have left : ∀ other ∈ before, groupKeyLess compare other.key (keyOf value) = true := by
    intro other member
    exact weak.less_of_less_of_notLess
      (increasing.2.2 other member block List.mem_cons_self) same.2
  have right : ∀ other ∈ after, groupKeyLess compare (keyOf value) other.key = true := by
    intro other member
    exact weak.less_of_notLess_of_less same.1
      ((List.pairwise_cons.mp increasing.2.1).1 other member)
  have lower := rep.mapLowerBound left (by
    intro other isHead
    cases isHead
    exact same.1)
  have atPosition : g.groupMap[before.length]? = some (block.entry g.list.name) := by
    rw [rep.groupMap, List.map_append, ← length_entries g.list.name before]
    exact SortedMaps.getElem?_split
  have equivalent : g.weaklyEquivalent block.key (keyOf value) = true :=
    (rep.weaklyEquivalent block.key (keyOf value)).mpr same
  have next : g.list.next it = g.list.iteratorTo (second ++ allNodes after) := by
    rw [position]
    exact next_iteratorTo nodes
  have rep' : g.Represents compare keyOf (before ++ [block] ++ after) := by simpa using rep
  have upper := (rep'.bounds order left right (by
    intro other member
    rw [List.mem_singleton] at member
    exact member ▸ same)).2
  have notPast : it ≠ g.list.past := by
    rw [position]
    intro impossible
    cases congrArg Iterator.node impossible
  have erasedNodes : (g.list.erase it).nodes =
      (allNodes before ++ first) ++ (second ++ allNodes after) := by
    rw [position]
    exact erase_nodes nodes
  have unfolded : g.erase (keyOf value) it = some
      ({ g with
          list := g.list.erase it
          groupMap :=
            if (block.entry g.list.name).2 = it then
              if g.list.next it ≠ g.upperBound (keyOf value) then
                SortedMaps.assign (groupKeyLess compare) g.groupMap (keyOf value)
                  (g.list.next it)
              else SortedMaps.eraseAt g.groupMap before.length
            else g.groupMap },
        g.list.next it) := by
    unfold GroupedList.erase
    rw [if_neg notPast]
    simp only [lower, atPosition]
    rw [if_neg (by simp [Block.entry, equivalent])]
    simp only [rep.mapCompare]
  refine ⟨_, unfolded, ?_, rfl⟩
  cases first with
  | cons head rest =>
      -- the erased node does not head its class: the map stays
      have headEq : block.head = head := (List.cons.inj inBlock).1
      have notHead : (block.entry g.list.name).2 ≠ it := by
        rw [position]
        intro sameIt
        have sameName : head.1 = name := by
          have := congrArg Iterator.node sameIt
          simpa [Block.entry, headEq, LinkedList.iteratorTo, firstNode] using this
        exact (split_distinct nodes).1 head (by simp) sameName
      refine ⟨before ++ ⟨block.key, block.head, rest ++ second⟩ :: after,
        rep.mapCompare, rep.groupKeyCompare, ?_, ?_, ?_⟩
      · rw [erasedNodes]
        simp [Block.nodes, headEq]
      · simp only [if_neg notHead, rep.groupMap]
        simp [Block.entry]
      · refine replace_block rep.ordered rfl ?_
        intro other member
        rw [inBlock]
        simp only [Block.nodes, headEq] at member
        simp only [List.cons_append, List.mem_cons, List.mem_append] at member ⊢
        tauto
  | nil =>
      have headEq : block.head = (name, value) := (List.cons.inj inBlock).1
      have restEq : block.rest = second := (List.cons.inj inBlock).2
      have isHead : (block.entry g.list.name).2 = it := by
        rw [position]
        simp [Block.entry, headEq, LinkedList.iteratorTo, firstNode]
      cases second with
      | nil =>
          -- the class becomes empty: its entry goes
          have atUpper : ¬ g.list.next it ≠ g.upperBound (keyOf value) := by
            rw [next, upper]
            simp
          refine ⟨before ++ after, rep.mapCompare, rep.groupKeyCompare, ?_, ?_, ?_⟩
          · rw [erasedNodes]
            simp
          · simp only [if_pos isHead, if_neg atUpper, rep.groupMap, List.map_append,
              List.map_cons]
            rw [← length_entries g.list.name before]
            exact SortedMaps.eraseAt_split _
          · exact rep.ordered.sub
              (List.Sublist.append_left (List.sublist_cons_self block after) before)
      | cons newHead rest =>
          -- the next node of the class becomes its head
          have inside' : g.list.nodes =
              (allNodes before ++ [(name, value)]) ++
                (newHead :: rest ++ allNodes after) := by
            rw [nodes]
            simp
          have afterSplit : g.list.nodes =
              (allNodes before ++ (name, value) :: newHead :: rest) ++ allNodes after := by
            rw [nodes]
            simp
          have notUpper : g.list.next it ≠ g.upperBound (keyOf value) := by
            rw [next, upper]
            intro sameIt
            have lengths := congrArg List.length
              (iteratorTo_injective inside' afterSplit sameIt)
            simp only [List.length_append, List.length_cons] at lengths
            omega
          refine ⟨before ++ ⟨block.key, newHead, rest⟩ :: after,
            rep.mapCompare, rep.groupKeyCompare, ?_, ?_, ?_⟩
          · rw [erasedNodes]
            simp [Block.nodes]
          · simp only [if_pos isHead, if_pos notUpper, rep.groupMap, List.map_append,
              List.map_cons]
            rw [SortedMaps.assign_split]
            · rw [next]
              rfl
            · intro other member
              obtain ⟨earlier, inBefore, rfl⟩ := List.mem_map.mp member
              exact left earlier inBefore
            · exact same.1
            · exact same.2
          · refine replace_block rep.ordered rfl ?_
            intro other member
            rw [inBlock]
            exact List.mem_cons_of_mem _ member

/-- Erasing a key removes its class and nothing else. -/
theorem GroupedList.Consistent.eraseKey (consistent : g.Consistent compare keyOf)
    (key : GroupKey Group) :
    (g.eraseKey key).Consistent compare keyOf ∧
      (g.eraseKey key).list.nodes = g.list.nodes.filter fun node =>
        groupKeyLess compare (keyOf node.2) key || groupKeyLess compare key (keyOf node.2) := by
  have weak := groupKeyLess_strictWeak order
  obtain ⟨blocks, rep⟩ := consistent
  obtain ⟨before, same, after, split, left, right, middle⟩ := rep.ordered.split_at order key
  subst split
  have eachSame := equivalent_of_class middle
  obtain ⟨lower, upper⟩ := rep.bounds order left right eachSame
  have rep' : g.Represents compare keyOf (before ++ (same ++ after)) := by
    rwa [← List.append_assoc]
  have mapIt : SortedMaps.lowerBound (groupKeyLess g.mapCompare) g.groupMap key = before.length :=
    rep'.mapLowerBound left fun block first => by
      rcases List.mem_append.mp (List.mem_of_head? first) with inSame | inAfter
      · exact (eachSame block inSame).1
      · exact weak.not_back (right block inAfter)
  have nodes : g.list.nodes = allNodes before ++ (allNodes same ++ allNodes after) := by
    rw [rep'.nodes, allNodes_append, allNodes_append]
  have begins : g.getListIterator before.length =
      g.list.iteratorTo (allNodes same ++ allNodes after) := by
    rw [rep'.getListIterator, allNodes_append]
  -- the nodes below and above the key stay, those of its class go
  have kept : (g.list.nodes.filter fun node =>
      groupKeyLess compare (keyOf node.2) key || groupKeyLess compare key (keyOf node.2)) =
        allNodes before ++ allNodes after := by
    have below : ∀ node ∈ allNodes before, groupKeyLess compare (keyOf node.2) key = true :=
      below_of_blocks order rep'.ordered (List.sublist_append_left before (same ++ after)) left
    have above : ∀ node ∈ allNodes after, groupKeyLess compare key (keyOf node.2) = true :=
      above_of_blocks order rep.ordered (List.sublist_append_right _ after) right
    have inClass : ∀ node ∈ allNodes same, Equivalent compare (keyOf node.2) key := by
      intro node member
      obtain ⟨block, inSame, inside⟩ := List.mem_flatMap.mp member
      refine equivalent_of_block order rep.ordered ?_ (eachSame block inSame) node inside
      exact List.mem_append_left after (List.mem_append_right before inSame)
    rw [nodes, List.filter_append, List.filter_append]
    rw [List.filter_eq_self.mpr fun node member => by simp [below node member]]
    rw [List.filter_eq_nil_iff.mpr fun node (member : node ∈ allNodes same) => by
      simp [(inClass node member).1, (inClass node member).2]]
    rw [List.filter_eq_self.mpr fun node (member : node ∈ allNodes after) => by
      simp [above node member]]
    rfl
  rw [kept]
  rcases middle with none | ⟨block, one, equivalent⟩
  · subst none
    have nothing : g.eraseKey key = g := by
      simp only [GroupedList.eraseKey, mapIt, begins, upper]
      simp
    rw [nothing]
    exact ⟨⟨_, rep⟩, nodes⟩
  · subst one
    have different : g.list.iteratorTo (allNodes [block] ++ allNodes after) ≠
        g.list.iteratorTo (allNodes after) := by
      intro equal
      have second : g.list.nodes = (allNodes before ++ allNodes [block]) ++ allNodes after := by
        rw [nodes, List.append_assoc]
      have lengths := congrArg List.length (iteratorTo_injective nodes second equal)
      simp only [allNodes_cons, allNodes_nil, List.length_append, Block.nodes, List.length_cons]
        at lengths
      omega
    have enough : (allNodes [block]).length ≤ g.list.nodes.length := by
      rw [nodes, List.length_append, List.length_append]
      omega
    have unfolded : g.eraseKey key =
        { g with
          list := LinkedList.eraseRange (g.list.iteratorTo (allNodes after)) g.list.nodes.length
            g.list (g.list.iteratorTo (allNodes [block] ++ allNodes after))
          groupMap := SortedMaps.eraseAt g.groupMap before.length } := by
      simp only [GroupedList.eraseKey, mapIt, begins, upper, ne_eq, different, not_false_eq_true,
        if_true]
    have erased : (g.eraseKey key).list.nodes = allNodes before ++ allNodes after := by
      rw [unfolded]
      exact eraseRange_nodes nodes rfl enough
    refine ⟨⟨before ++ after, ?_⟩, erased⟩
    rw [unfolded] at erased ⊢
    refine ⟨rep.mapCompare, rep.groupKeyCompare, ?_, ?_, ?_⟩
    · rw [erased, allNodes_append]
    · have entries : g.groupMap = before.map (Block.entry g.list.name) ++
          block.entry g.list.name :: after.map (Block.entry g.list.name) := by
        rw [rep'.groupMap, List.map_append]
        rfl
      dsimp only
      rw [LinkedList.eraseRange_name, entries, ← length_entries g.list.name before,
        SortedMaps.eraseAt_split, List.map_append]
    · refine rep'.ordered.sub (List.Sublist.append_left ?_ before)
      exact List.sublist_cons_self block after

end Removal

theorem GroupedList.Consistent.clear {g : GroupedList Group Value}
    (consistent : g.Consistent compare keyOf) : g.clear.Consistent compare keyOf := by
  obtain ⟨blocks, rep⟩ := consistent
  exact ⟨[], rep.mapCompare, rep.groupKeyCompare, rfl, rfl,
    rep.ordered.sub (List.nil_sublist blocks)⟩

section Copy

variable {g : GroupedList Group Value}

/-- The two iterators of the inner loop stay at corresponding nodes, and stop
at the group head they are looking for. -/
private theorem advanceTogether_segment {thisList otherList : LinkedList Value}
    (sameNodes : thisList.nodes = otherList.nodes)
    {before segment tail : List (Nat × Value)}
    (split : otherList.nodes = before ++ (segment ++ tail)) {rounds : Nat}
    (enough : segment.length ≤ rounds) :
    GroupedList.advanceTogether otherList thisList (otherList.iteratorTo tail) rounds
        (otherList.iteratorTo (segment ++ tail)) (thisList.iteratorTo (segment ++ tail)) =
      thisList.iteratorTo tail := by
  induction segment generalizing before rounds with
  | nil =>
      cases rounds with
      | zero => rfl
      | succ rounds => simp [GroupedList.advanceTogether]
  | cons node rest ih =>
      cases rounds with
      | zero => simp at enough
      | succ rounds =>
          have tailSplit : otherList.nodes = (before ++ node :: rest) ++ tail := by
            rw [split, List.append_assoc]
          have notThere : otherList.iteratorTo (node :: rest ++ tail) ≠
              otherList.iteratorTo tail := by
            intro same
            have lengths := congrArg List.length (iteratorTo_injective split tailSplit same)
            simp only [List.length_append, List.length_cons] at lengths
            omega
          have otherNext : otherList.next (otherList.iteratorTo (node :: rest ++ tail)) =
              otherList.iteratorTo (rest ++ tail) := next_iteratorTo split
          have thisNext : thisList.next (thisList.iteratorTo (node :: rest ++ tail)) =
              thisList.iteratorTo (rest ++ tail) :=
            next_iteratorTo (sameNodes.trans split)
          simp only [GroupedList.advanceTogether, if_neg notThere, otherNext, thisNext]
          have later : otherList.nodes = (before ++ [node]) ++ (rest ++ tail) := by
            rw [split]
            simp
          refine ih later ?_
          simpa using enough

private theorem fixUpMap_blocks {thisList otherList : LinkedList Value}
    (sameNodes : thisList.nodes = otherList.nodes)
    {before : List (Nat × Value)} {blocks : List (Block Group Value)}
    (split : otherList.nodes = before ++ allNodes blocks) :
    GroupedList.fixUpMap otherList thisList (blocks.map (Block.entry otherList.name))
        (thisList.iteratorTo (allNodes blocks)) =
      blocks.map (Block.entry thisList.name) := by
  induction blocks generalizing before with
  | nil => rfl
  | cons block rest ih =>
      have enough : block.nodes.length ≤ otherList.nodes.length := by
        rw [split, allNodes_cons]
        simp only [List.length_append]
        omega
      have advanced := advanceTogether_segment sameNodes
        (split.trans (congrArg (before ++ ·) (allNodes_cons block rest))) enough
      have otherNext :
          GroupedList.iteratorOfRest otherList (rest.map (Block.entry otherList.name)) =
            otherList.iteratorTo (allNodes rest) := by
        cases rest with
        | nil => rfl
        | cons next later => rfl
      have start : (block.entry otherList.name).2 =
          otherList.iteratorTo (block.nodes ++ allNodes rest) := rfl
      simp only [List.map_cons, GroupedList.fixUpMap]
      have later : otherList.nodes = (before ++ block.nodes) ++ allNodes rest := by
        rw [split]
        simp
      rw [otherNext, start, allNodes_cons, advanced, ih later]
      rfl

/-- The copy has the same blocks; its map points into its own list. -/
theorem GroupedList.Represents.copy {blocks : List (Block Group Value)}
    (rep : g.Represents compare keyOf blocks) (name : Nat) :
    (g.copy name).Represents compare keyOf blocks where
  mapCompare := rep.mapCompare
  groupKeyCompare := rep.groupKeyCompare
  nodes := rep.nodes
  groupMap := by
    have split : g.list.nodes = [] ++ allNodes blocks := rep.nodes
    have sameNodes : (g.list.copyAs name).nodes = g.list.nodes := rfl
    have fixed := fixUpMap_blocks sameNodes split
    have start : (g.list.copyAs name).begin =
        (g.list.copyAs name).iteratorTo (allNodes blocks) := by
      rw [begin_eq_iteratorTo, LinkedList.copyAs_nodes, rep.nodes]
    unfold GroupedList.copy
    simp only [start, rep.groupMap]
    exact fixed
  ordered := rep.ordered

theorem GroupedList.Consistent.copy (consistent : g.Consistent compare keyOf) (name : Nat) :
    (g.copy name).Consistent compare keyOf := by
  obtain ⟨blocks, rep⟩ := consistent
  exact ⟨blocks, rep.copy name⟩

end Copy

end Signals2
