/-
A walk along a linked list that others go on changing.

The values that the walk has left behind stay in the order of the list, and none of
them is ahead of it, whatever is inserted and erased meanwhile.  Only the erasure of
the very node that the walk stands on stops it: its iterator is lost for good.
-/

import Mathlib.Data.List.TakeWhile
import Signals2.Library.LinkedLists

namespace LinkedLists

variable {Value : Type} {list : LinkedList Value} {position : Iterator}

/-! ### Splits -/

theorem insertBefore_split (new : Nat × Value) (nodes : List (Nat × Value))
    (place : Option Nat) :
    ∃ left right, nodes = left ++ right ∧
      insertBefore new nodes place = left ++ new :: right := by
  induction nodes with
  | nil => exact ⟨[], [], rfl, rfl⟩
  | cons node rest ih =>
      unfold insertBefore
      split
      · exact ⟨[], node :: rest, rfl, rfl⟩
      · obtain ⟨left, right, split, inserted⟩ := ih
        exact ⟨node :: left, right, by rw [split]; rfl, by rw [inserted]; rfl⟩

/-- A node that is inserted comes before or after a given split, or just before it. -/
theorem insert_split {before rest : List (Nat × Value)} (nodes : list.nodes = before ++ rest)
    (place : Iterator) (value : Value) :
    (∃ left right, before = left ++ right ∧ (list.insert place value).nodes =
      (left ++ (list.fresh, value) :: right) ++ rest) ∨
    ∃ node left right, rest = node :: (left ++ right) ∧ (list.insert place value).nodes =
      before ++ node :: (left ++ (list.fresh, value) :: right) := by
  obtain ⟨left, right, split, inserted⟩ :=
    insertBefore_split (list.fresh, value) list.nodes place.node
  change (list.insert place value).nodes = _ at inserted
  rcases List.append_eq_append_iff.mp (nodes.symm.trans split) with
    ⟨middle, rfl, later⟩ | ⟨middle, earlier, rfl⟩
  · cases middle with
    | nil =>
        refine .inl ⟨before, [], (List.append_nil before).symm, ?_⟩
        rw [inserted, later]
        simp
    | cons node others =>
        refine .inr ⟨node, others, right, later, ?_⟩
        rw [inserted]
        simp
  · refine .inl ⟨left, middle, earlier, ?_⟩
    rw [inserted]
    simp

/-! ### What is ahead of a position -/

/-- The nodes from the position on. -/
def LinkedList.ahead (list : LinkedList Value) (position : Iterator) : List (Nat × Value) :=
  list.nodes.dropWhile fun node => some node.1 ≠ position.node

theorem ahead_iteratorTo {before after : List (Nat × Value)}
    (split : list.nodes = before ++ after) : list.ahead (list.iteratorTo after) = after := by
  unfold LinkedList.ahead LinkedList.iteratorTo
  rw [split]
  cases after with
  | nil => simp [firstNode, List.dropWhile_eq_nil_iff]
  | cons node later =>
      have passed : ∀ other ∈ before, other.1 ≠ node.1 := (split_distinct split).1
      rw [List.dropWhile_append_of_pos (by simpa [firstNode] using passed)]
      simp [List.dropWhile, firstNode]

/-- The node of a position is the first one ahead of it, and the others are ahead of the
next position. -/
theorem ahead_here {value : Value} (found : list.value? position = some value) :
    ∃ node later, list.ahead position = (node, value) :: later ∧
      list.ahead (list.next position) = later := by
  obtain ⟨before, node, after, split, rfl⟩ := exists_split found
  have later : list.nodes = (before ++ [(node, value)]) ++ after := by
    rw [split, List.append_assoc]
    rfl
  refine ⟨node, after, ahead_iteratorTo split, ?_⟩
  rw [next_iteratorTo split]
  exact ahead_iteratorTo later

theorem ahead_past (atEnd : position.node = none) : list.ahead position = [] := by
  simp [LinkedList.ahead, atEnd, List.dropWhile_eq_nil_iff]

theorem ahead_begin : list.ahead list.begin = list.nodes :=
  ahead_iteratorTo (List.nil_append list.nodes).symm

theorem ahead_length (list : LinkedList Value) (position : Iterator) :
    (list.ahead position).length ≤ list.nodes.length :=
  (List.dropWhile_sublist _).length_le

/-- The erasure of a node leaves what is ahead of the next one. -/
theorem ahead_erase {value : Value} (found : list.value? position = some value) :
    (list.erase position).ahead (list.next position) = list.ahead (list.next position) := by
  obtain ⟨before, node, after, split, rfl⟩ := exists_split found
  have later : list.nodes = (before ++ [(node, value)]) ++ after := by
    rw [split, List.append_assoc]
    rfl
  rw [next_iteratorTo split, ahead_iteratorTo later]
  exact ahead_iteratorTo (erase_nodes split)

/-- The position of a suffix depends on the first node of the suffix only. -/
theorem iteratorTo_congr {other : LinkedList Value} (name : other.name = list.name)
    (node : Nat × Value) (rest rest' : List (Nat × Value)) :
    other.iteratorTo (node :: rest) = list.iteratorTo (node :: rest') := by
  simp [LinkedList.iteratorTo, firstNode, name]

theorem value?_none {name : Nat} (here : position.node = some name)
    (gone : ∀ node ∈ list.nodes, node.1 ≠ name) : list.value? position = none := by
  by_contra present
  obtain ⟨value, found⟩ := Option.ne_none_iff_exists'.mp present
  obtain ⟨before, node, after, split, same⟩ := exists_split found
  rw [same] at here
  have equal : node = name := Option.some.inj here
  exact gone (node, value) (by simp [split]) equal

theorem next_ne {value : Value} (found : list.value? position = some value) :
    list.next position ≠ position := by
  obtain ⟨before, node, after, nodes, here⟩ := exists_split found
  rw [here, next_iteratorTo nodes]
  cases after with
  | nil => simp [LinkedList.iteratorTo, firstNode]
  | cons later others =>
      intro same
      have equal : later.1 = node := by
        simpa [LinkedList.iteratorTo, firstNode] using same
      exact (split_distinct nodes).2 later List.mem_cons_self equal

/-! ### The walk -/

variable [DecidableEq Value]

/-- What a list keeps of another one's elements, in the order of the other. -/
theorem filter_mem_of_sublist {part whole : List Value} (distinct : whole.Nodup)
    (sub : part.Sublist whole) : whole.filter (fun value => value ∈ part) = part := by
  induction sub with
  | slnil => rfl
  | cons value sub ih =>
      obtain ⟨absent, rest⟩ := List.nodup_cons.mp distinct
      rw [List.filter_cons_of_neg (by simpa using fun member => absent (sub.subset member))]
      exact ih rest
  | @cons_cons left right value sub ih =>
      obtain ⟨absent, rest⟩ := List.nodup_cons.mp distinct
      have same : (right.filter fun other => other ∈ value :: left) =
          right.filter fun other => other ∈ left := by
        apply List.filter_congr
        intro other member
        have apart : other ≠ value := fun same => absent (same ▸ member)
        simp [apart]
      rw [List.filter_cons_of_pos (by simp), same, ih rest]

/-- Among the values of a list, the visited ones stand in the order of the visits. -/
def InOrder (visited values : List Value) : Prop :=
  (visited.filter fun value => value ∈ values).Sublist values

theorem InOrder.sublist {visited part whole : List Value} (order : InOrder visited whole)
    (distinct : whole.Nodup) (sub : part.Sublist whole) : InOrder visited part := by
  have both : (visited.filter fun value => value ∈ whole).filter (fun value => value ∈ part) =
      visited.filter fun value => value ∈ part := by
    rw [List.filter_filter]
    apply List.filter_congr
    intro value _
    by_cases member : value ∈ part
    · simp [member, sub.subset member]
    · simp [member]
  have filtered := List.Sublist.filter (fun value => decide (value ∈ part)) order
  rw [both, filter_mem_of_sublist distinct sub] at filtered
  exact filtered

/-- Values that were not visited may come in anywhere. -/
theorem InOrder.extend {visited part whole : List Value} (order : InOrder visited part)
    (sub : part.Sublist whole) (unvisited : ∀ value ∈ whole, value ∈ visited → value ∈ part) :
    InOrder visited whole := by
  have same : (visited.filter fun value => value ∈ whole) =
      visited.filter fun value => value ∈ part := by
    apply List.filter_congr
    intro value member
    by_cases inside : value ∈ part
    · simp [inside, sub.subset inside]
    · have outside : value ∉ whole := fun there => inside (unvisited value there member)
      simp [inside, outside]
  unfold InOrder
  rw [same]
  exact order.trans sub

/-- Where a walk is that began with the values `origin` and has left `visited` behind. -/
inductive Walk (origin visited : List Value) (list : LinkedList Value) (position : Iterator) : Prop
  | on (before rest : List (Nat × Value)) (nodes : list.nodes = before ++ rest)
      (here : position = list.iteratorTo rest)
      (ahead : ∀ node ∈ rest, node.2 ∉ visited)
      (order : InOrder visited (before.map Prod.snd))
      (complete : ∀ node ∈ before, node.2 ∈ origin → node.2 ∈ visited)
  | lost (name : Nat) (here : position.node = some name) (used : name < list.fresh)
      (gone : ∀ node ∈ list.nodes, node.1 ≠ name) (order : InOrder visited list.values)

variable {origin visited : List Value}

theorem Walk.begin : Walk list.values [] list list.begin :=
  .on [] list.nodes rfl rfl (fun _ _ impossible => by cases impossible) (List.Sublist.refl [])
    fun _ impossible => by cases impossible

/-- The visited values that are still there stand in the order of the visits. -/
theorem Walk.inOrder (walk : Walk origin visited list position) : InOrder visited list.values := by
  cases walk with
  | on before rest nodes here ahead order complete =>
      have values : list.values = before.map Prod.snd ++ rest.map Prod.snd := by
        simp [LinkedList.values, nodes]
      rw [values]
      apply order.extend (List.sublist_append_left _ _)
      intro value member old
      rcases List.mem_append.mp member with earlier | later
      · exact earlier
      · obtain ⟨node, inside, rfl⟩ := List.mem_map.mp later
        exact absurd old (ahead node inside)
  | lost name here used gone order => exact order

theorem Walk.unvisited (walk : Walk origin visited list position) {value : Value}
    (found : list.value? position = some value) : value ∉ visited := by
  cases walk with
  | on before rest nodes here ahead order complete =>
      cases rest with
      | nil =>
          have inside := node_of_value? found
          rw [here] at inside
          exact absurd rfl inside
      | cons node later =>
          rw [here, value?_iteratorTo nodes] at found
          cases found
          exact ahead node List.mem_cons_self
  | lost name here used gone order =>
      rw [value?_none here gone] at found
      cases found

/-- At the end of the list, what was there at the beginning and still is has been visited. -/
theorem Walk.ended (walk : Walk origin visited list position) (atEnd : position.node = none)
    {value : Value} (member : value ∈ list.values) (old : value ∈ origin) : value ∈ visited := by
  cases walk with
  | on before rest nodes here ahead order complete =>
      cases rest with
      | nil =>
          obtain ⟨node, inside, rfl⟩ := List.mem_map.mp member
          rw [nodes, List.append_nil] at inside
          exact complete node inside old
      | cons node later =>
          rw [here] at atEnd
          cases atEnd
  | lost name here used gone order =>
      rw [here] at atEnd
      cases atEnd

theorem Walk.advance (walk : Walk origin visited list position) (distinct : list.values.Nodup)
    {value : Value} (found : list.value? position = some value) :
    Walk origin (visited ++ [value]) list (list.next position) := by
  cases walk with
  | on before rest nodes here ahead order complete =>
      cases rest with
      | nil =>
          have inside := node_of_value? found
          rw [here] at inside
          exact absurd rfl inside
      | cons node later =>
          rw [here, value?_iteratorTo nodes] at found
          cases found
          have values : list.values =
              before.map Prod.snd ++ node.2 :: later.map Prod.snd := by
            simp [LinkedList.values, nodes]
          rw [values] at distinct
          obtain ⟨_, tail, apart⟩ := List.nodup_append.mp distinct
          have once := (List.nodup_cons.mp tail).1
          refine .on (before ++ [node]) later (by simp [nodes]) ?_ ?_ ?_ ?_
          · rw [here, next_iteratorTo nodes]
          · intro other member old
            rcases List.mem_append.mp old with earlier | last
            · exact ahead other (List.mem_cons_of_mem node member) earlier
            · have same : other.2 = node.2 := by simpa using last
              exact once (same ▸ List.mem_map_of_mem member)
          · have unvisited := ahead node List.mem_cons_self
            have whole := order.extend (List.sublist_append_left _ [node.2]) (by
              intro other member old
              rcases List.mem_append.mp member with earlier | last
              · exact earlier
              · cases List.mem_singleton.mp last
                exact absurd old unvisited)
            unfold InOrder at order whole ⊢
            rw [List.map_append, List.map_singleton, List.filter_append]
            rw [List.filter_cons_of_pos (by simp), List.filter_nil]
            apply List.Sublist.append _ (List.Sublist.refl _)
            have same : (visited.filter fun other => other ∈ before.map Prod.snd ++ [node.2]) =
                visited.filter fun other => other ∈ before.map Prod.snd := by
              apply List.filter_congr
              intro other old
              have different : other ≠ node.2 := fun same => unvisited (same ▸ old)
              simp [different]
            rw [same]
            exact order
          · intro other member old
            rcases List.mem_append.mp member with earlier | last
            · exact List.mem_append_left _ (complete other earlier old)
            · cases List.mem_singleton.mp last
              exact List.mem_append_right _ (List.mem_singleton.mpr rfl)
  | lost name here used gone order =>
      rw [value?_none here gone] at found
      cases found

/-! ### What others do -/

theorem Walk.insert (walk : Walk origin visited list position) (place : Iterator) {value : Value}
    (new : value ∉ visited) (young : value ∉ origin) :
    Walk origin visited (list.insert place value) position := by
  cases walk with
  | on before rest nodes here ahead order complete =>
      rcases insert_split nodes place value with
        ⟨left, right, rfl, inserted⟩ | ⟨node, left, right, rfl, inserted⟩
      · refine .on _ rest inserted ?_ ahead ?_ ?_
        · rw [here]
          rfl
        · apply order.extend
          · simp only [List.map_append, List.map_cons]
            exact List.Sublist.append (List.Sublist.refl _) (List.sublist_cons_self _ _)
          · intro other member old
            have different : other ≠ value := fun same => new (same ▸ old)
            simpa [different] using member
        · intro other member old
          have cases_ : other ∈ left ++ right ∨ other = (list.fresh, value) := by
            simpa [or_comm, or_left_comm, or_assoc] using member
          rcases cases_ with earlier | rfl
          · exact complete other earlier old
          · exact absurd old young
      · refine .on before _ inserted ?_ ?_ order complete
        · rw [here]
          exact (iteratorTo_congr rfl node _ _).symm
        · intro other member
          have cases_ : other ∈ node :: (left ++ right) ∨ other = (list.fresh, value) := by
            simpa [or_comm, or_left_comm, or_assoc] using member
          rcases cases_ with earlier | rfl
          · exact ahead other earlier
          · exact new
  | lost name here used gone order =>
      refine .lost name here (Nat.lt_succ_of_lt used) ?_ ?_
      · intro node member
        rcases List.mem_cons.mp ((insertBefore_perm _ _ _).mem_iff.mp member) with same | old
        · subst same
          exact Ne.symm (Nat.ne_of_lt used)
        · exact gone node old
      · obtain ⟨left, right, split, inserted⟩ :=
          insertBefore_split (list.fresh, value) list.nodes place.node
        have values : list.values = left.map Prod.snd ++ right.map Prod.snd := by
          simp [LinkedList.values, split]
        have values' : (list.insert place value).values =
            left.map Prod.snd ++ value :: right.map Prod.snd := by
          simp [LinkedList.values, LinkedList.insert, inserted]
        rw [values']
        rw [values] at order
        apply order.extend
        · exact List.Sublist.append (List.Sublist.refl _) (List.sublist_cons_self _ _)
        · intro other member old
          have different : other ≠ value := fun same => new (same ▸ old)
          simpa [different] using member

theorem Walk.erase (walk : Walk origin visited list position) (distinct : list.values.Nodup)
    (place : Iterator) : Walk origin visited (list.erase place) position := by
  cases walk with
  | on before rest nodes here ahead order complete =>
      have erased : (list.erase place).nodes =
          (before.filter fun node => some node.1 ≠ place.node) ++
            rest.filter fun node => some node.1 ≠ place.node := by
        simp [LinkedList.erase, nodes]
      have apart : (before.map Prod.snd).Nodup := by
        have values : list.values = before.map Prod.snd ++ rest.map Prod.snd := by
          simp [LinkedList.values, nodes]
        rw [values] at distinct
        exact (List.nodup_append.mp distinct).1
      have shorter : ((before.filter fun node => some node.1 ≠ place.node).map Prod.snd).Sublist
          (before.map Prod.snd) := List.filter_sublist.map Prod.snd
      have order' := order.sublist apart shorter
      have complete' : ∀ node ∈ before.filter (fun node => some node.1 ≠ place.node),
          node.2 ∈ origin → node.2 ∈ visited := by
        intro node member
        exact complete node (List.mem_filter.mp member).1
      have ahead' : ∀ node ∈ rest.filter (fun node => some node.1 ≠ place.node),
          node.2 ∉ visited := by
        intro node member
        exact ahead node (List.mem_filter.mp member).1
      cases rest with
      | nil => exact .on _ _ erased here ahead' order' complete'
      | cons node later =>
          by_cases stays : some node.1 ≠ place.node
          · refine .on _ _ erased ?_ ahead' order' complete'
            rw [List.filter_cons_of_pos (by simpa using stays), here]
            exact (iteratorTo_congr rfl node _ _).symm
          · have target : some node.1 = place.node := by simpa using stays
            refine .lost node.1 ?_ ?_ ?_ ?_
            · rw [here]
              rfl
            · exact list.below node (by simp [nodes])
            · intro other member same
              have kept := (List.mem_filter.mp member).2
              rw [same] at kept
              exact absurd target (by simpa using kept)
            · have whole : Walk origin visited list position :=
                .on before (node :: later) nodes here ahead order complete
              exact whole.inOrder.sublist distinct (List.filter_sublist.map Prod.snd)
  | lost name here used gone order =>
      refine .lost name here used ?_ ?_
      · intro node member
        exact gone node (List.mem_filter.mp member).1
      · exact order.sublist distinct (List.filter_sublist.map Prod.snd)

/-! ### Where it stands -/

/-- The walk stands on the node with this value, or that node has been erased. -/
inductive Stands (list : LinkedList Value) (position : Iterator) (value : Value) : Prop
  | on (found : list.value? position = some value)
  | lost (name : Nat) (here : position.node = some name) (used : name < list.fresh)
      (gone : ∀ node ∈ list.nodes, node.1 ≠ name) (absent : value ∉ list.values)

omit [DecidableEq Value] in
theorem Stands.unique {value other : Value} (stands : Stands list position value)
    (found : list.value? position = some other) : other = value := by
  cases stands with
  | on here =>
      cases here.symm.trans found
      rfl
  | lost name here used gone absent =>
      rw [value?_none here gone] at found
      cases found

omit [DecidableEq Value] in
theorem Stands.inside {value : Value} (stands : Stands list position value) :
    position.node ≠ none := by
  cases stands with
  | on here => exact node_of_value? here
  | lost name here used gone absent =>
      rw [here]
      simp

omit [DecidableEq Value] in
theorem Stands.insert {value new : Value} (stands : Stands list position value)
    (different : new ≠ value) (place : Iterator) :
    Stands (list.insert place new) position value := by
  cases stands with
  | on found =>
      obtain ⟨before, node, after, nodes, here⟩ := exists_split found
      apply Stands.on
      rcases insert_split nodes place new with
        ⟨left, right, _, inserted⟩ | ⟨head, left, right, same, inserted⟩
      · rw [here]
        exact value?_iteratorTo inserted
      · cases same
        have moved : position = (list.insert place new).iteratorTo
            ((node, value) :: (left ++ (list.fresh, new) :: right)) := here
        rw [moved]
        exact value?_iteratorTo inserted
  | lost name here used gone absent =>
      refine .lost name here (Nat.lt_succ_of_lt used) ?_ ?_
      · intro node member
        rcases List.mem_cons.mp ((insertBefore_perm _ _ _).mem_iff.mp member) with same | old
        · subst same
          exact Ne.symm (Nat.ne_of_lt used)
        · exact gone node old
      · intro member
        obtain ⟨node, inside, same⟩ := List.mem_map.mp member
        rcases List.mem_cons.mp ((insertBefore_perm _ _ _).mem_iff.mp inside) with rfl | old
        · exact different same
        · exact absent (List.mem_map.mpr ⟨node, old, same⟩)

omit [DecidableEq Value] in
theorem Stands.erase {value : Value} (stands : Stands list position value)
    (distinct : list.values.Nodup) (place : Iterator) :
    Stands (list.erase place) position value := by
  cases stands with
  | on found =>
      obtain ⟨before, node, after, nodes, here⟩ := exists_split found
      by_cases stays : some node ≠ place.node
      · have erased : (list.erase place).nodes =
            (before.filter fun other => some other.1 ≠ place.node) ++ (node, value) ::
              after.filter fun other => some other.1 ≠ place.node := by
          simp [LinkedList.erase, nodes, stays]
        have moved : position = (list.erase place).iteratorTo ((node, value) ::
            after.filter fun other => some other.1 ≠ place.node) := here
        apply Stands.on
        rw [moved]
        exact value?_iteratorTo erased
      · have target : some node = place.node := by simpa using stays
        refine .lost node (by rw [here]; rfl) (list.below (node, value) (by simp [nodes])) ?_ ?_
        · intro other member same
          have kept := (List.mem_filter.mp member).2
          rw [same] at kept
          exact absurd target (by simpa using kept)
        · intro member
          obtain ⟨other, inside, same⟩ := List.mem_map.mp member
          obtain ⟨old, kept⟩ := List.mem_filter.mp inside
          have values : list.values = before.map Prod.snd ++ value :: after.map Prod.snd := by
            simp [LinkedList.values, nodes]
          rw [values] at distinct
          obtain ⟨_, tail, apart⟩ := List.nodup_append.mp distinct
          rw [nodes] at old
          rcases List.mem_append.mp old with earlier | later
          · exact apart other.2 (List.mem_map_of_mem earlier) value List.mem_cons_self same
          · rcases List.mem_cons.mp later with rfl | later
            · exact absurd target (by simpa using kept)
            · exact (List.nodup_cons.mp tail).1 (same ▸ List.mem_map_of_mem later)
  | lost name here used gone absent =>
      refine .lost name here used ?_ ?_
      · intro node member
        exact gone node (List.mem_filter.mp member).1
      · intro member
        exact absent ((List.filter_sublist.map Prod.snd).subset member)

/-- The order holds with the value that the walk stands on. -/
theorem Walk.inOrder_standing (walk : Walk origin visited list position)
    (distinct : list.values.Nodup) {value : Value} (stands : Stands list position value) :
    InOrder (visited ++ [value]) list.values := by
  cases stands with
  | on found => exact (walk.advance distinct found).inOrder
  | lost name here used gone absent =>
      have order := walk.inOrder
      unfold InOrder at order ⊢
      rw [List.filter_append, List.filter_cons_of_neg (by simpa using absent), List.filter_nil,
        List.append_nil]
      exact order

end LinkedLists
