/-
Linked lists whose nodes have an identity, with iterators that name a node of
one particular list object or its past-the-end position.

Node names are handed out by the list and never reused, so an iterator to an
erased node is recognizable as such and never aliases a later node.  Copying a
list under a new name gives nodes no old iterator refers to.
-/

import Mathlib.Data.List.Nodup

namespace LinkedLists

/-- A position in the list object `owner`; `none` is its past-the-end position. -/
structure Iterator where
  owner : Nat
  node : Option Nat
deriving DecidableEq, Repr

structure LinkedList (Value : Type) where
  name : Nat
  nodes : List (Nat × Value)
  fresh : Nat
  below : ∀ node ∈ nodes, node.1 < fresh
  distinct : (nodes.map Prod.fst).Nodup

variable {Value : Type}

/-- The node a suffix starts with. -/
def firstNode : List (Nat × Value) → Option Nat
  | [] => none
  | node :: _ => some node.1

def nodeAfter : List (Nat × Value) → Nat → Option Nat
  | [], _ => none
  | node :: rest, wanted =>
      if node.1 = wanted then firstNode rest else nodeAfter rest wanted

def valueAt : List (Nat × Value) → Nat → Option Value
  | [], _ => none
  | node :: rest, wanted =>
      if node.1 = wanted then some node.2 else valueAt rest wanted

/-- Insertion before a node; before the past-the-end position when there is none. -/
def insertBefore (new : Nat × Value) : List (Nat × Value) → Option Nat → List (Nat × Value)
  | [], _ => [new]
  | node :: rest, position =>
      if some node.1 = position then new :: node :: rest
      else node :: insertBefore new rest position

theorem insertBefore_perm (new : Nat × Value) (nodes : List (Nat × Value))
    (position : Option Nat) : (insertBefore new nodes position).Perm (new :: nodes) := by
  induction nodes with
  | nil => exact List.Perm.refl _
  | cons node rest ih =>
      unfold insertBefore
      split
      · exact List.Perm.refl _
      · exact (List.Perm.cons node ih).trans (List.Perm.swap new node rest)

namespace LinkedList

def empty (name : Nat) : LinkedList Value :=
  { name := name
    nodes := []
    fresh := 0
    below := by intro node member; cases member
    distinct := List.nodup_nil }

/-- The nodes of a copy have the same order and values and a new owner. -/
def copyAs (list : LinkedList Value) (name : Nat) : LinkedList Value :=
  { list with name := name }

def begin (list : LinkedList Value) : Iterator :=
  { owner := list.name, node := firstNode list.nodes }

def past (list : LinkedList Value) : Iterator :=
  { owner := list.name, node := none }

def next (list : LinkedList Value) (position : Iterator) : Iterator :=
  { owner := list.name, node := position.node.bind (nodeAfter list.nodes) }

/-- `none` for the past-the-end position, an erased node, or another list's node. -/
def value? (list : LinkedList Value) (position : Iterator) : Option Value :=
  if position.owner = list.name then position.node.bind (valueAt list.nodes) else none

def insert (list : LinkedList Value) (position : Iterator) (value : Value) :
    LinkedList Value :=
  { name := list.name
    nodes := insertBefore (list.fresh, value) list.nodes position.node
    fresh := list.fresh + 1
    below := by
      intro node member
      rcases List.mem_cons.mp ((insertBefore_perm _ _ _).mem_iff.mp member) with new | old
      · subst new
        exact Nat.lt_succ_self _
      · exact Nat.lt_succ_of_lt (list.below node old)
    distinct := by
      refine (((insertBefore_perm _ _ _).map Prod.fst).nodup_iff).mpr ?_
      rw [List.map_cons, List.nodup_cons]
      refine ⟨?_, list.distinct⟩
      intro member
      obtain ⟨node, old, same⟩ := List.mem_map.mp member
      have smaller := list.below node old
      omega }

/-- The node that the next insertion creates. -/
def upcoming (list : LinkedList Value) : Iterator :=
  { owner := list.name, node := some list.fresh }

def erase (list : LinkedList Value) (position : Iterator) : LinkedList Value :=
  { list with
    nodes := list.nodes.filter fun node => some node.1 ≠ position.node
    below := by
      intro node member
      exact list.below node (List.mem_filter.mp member).1
    distinct := list.distinct.sublist (List.filter_sublist.map Prod.fst) }

/-- Erasure from a position up to another one, node by node. -/
def eraseRange (last : Iterator) : Nat → LinkedList Value → Iterator → LinkedList Value
  | 0, list, _ => list
  | rounds + 1, list, first =>
      if first = last then list
      else eraseRange last rounds (list.erase first) (list.next first)

def clear (list : LinkedList Value) : LinkedList Value :=
  { list with
    nodes := []
    below := by intro node member; cases member
    distinct := List.nodup_nil }

def values (list : LinkedList Value) : List Value :=
  list.nodes.map Prod.snd

/-- The position of a suffix of the nodes. -/
def iteratorTo (list : LinkedList Value) (suffix : List (Nat × Value)) : Iterator :=
  { owner := list.name, node := firstNode suffix }

@[simp] theorem insert_name (list : LinkedList Value) (position : Iterator) (value : Value) :
    (list.insert position value).name = list.name := rfl

@[simp] theorem erase_name (list : LinkedList Value) (position : Iterator) :
    (list.erase position).name = list.name := rfl

@[simp] theorem eraseRange_name (last : Iterator) (rounds : Nat) (list : LinkedList Value)
    (first : Iterator) : (eraseRange last rounds list first).name = list.name := by
  induction rounds generalizing list first with
  | zero => rfl
  | succ rounds ih =>
      unfold eraseRange
      split
      · rfl
      · exact ih _ _

@[simp] theorem eraseRange_fresh (last : Iterator) (rounds : Nat) (list : LinkedList Value)
    (first : Iterator) : (eraseRange last rounds list first).fresh = list.fresh := by
  induction rounds generalizing list first with
  | zero => rfl
  | succ rounds ih =>
      unfold eraseRange
      split
      · rfl
      · exact ih _ _

@[simp] theorem copyAs_name (list : LinkedList Value) (name : Nat) :
    (list.copyAs name).name = name := rfl

@[simp] theorem copyAs_nodes (list : LinkedList Value) (name : Nat) :
    (list.copyAs name).nodes = list.nodes := rfl

end LinkedList

/-! ### Iterators at a split of the nodes -/

variable {list : LinkedList Value}

theorem split_distinct {before after : List (Nat × Value)} {node : Nat × Value}
    (split : list.nodes = before ++ node :: after) :
    (∀ other ∈ before, other.1 ≠ node.1) ∧ (∀ other ∈ after, other.1 ≠ node.1) := by
  have distinct := list.distinct
  rw [split, List.map_append, List.map_cons, List.nodup_append] at distinct
  obtain ⟨_, tail, apart⟩ := distinct
  constructor
  · intro other member
    exact apart other.1 (List.mem_map_of_mem member) node.1 List.mem_cons_self
  · intro other member same
    exact (List.nodup_cons.mp tail).1 (same ▸ List.mem_map_of_mem member)

private theorem nodeAfter_append {before after : List (Nat × Value)} {node : Nat × Value}
    (absent : ∀ other ∈ before, other.1 ≠ node.1) :
    nodeAfter (before ++ node :: after) node.1 = firstNode after := by
  induction before with
  | nil => simp [nodeAfter]
  | cons head tail ih =>
      have different := absent head List.mem_cons_self
      simp only [List.cons_append, nodeAfter, if_neg different]
      exact ih fun other member => absent other (List.mem_cons_of_mem head member)

private theorem valueAt_append {before after : List (Nat × Value)} {node : Nat × Value}
    (absent : ∀ other ∈ before, other.1 ≠ node.1) :
    valueAt (before ++ node :: after) node.1 = some node.2 := by
  induction before with
  | nil => simp [valueAt]
  | cons head tail ih =>
      have different := absent head List.mem_cons_self
      simp only [List.cons_append, valueAt, if_neg different]
      exact ih fun other member => absent other (List.mem_cons_of_mem head member)

private theorem insertBefore_append (new : Nat × Value) {before after : List (Nat × Value)}
    (absent : ∀ other ∈ before, some other.1 ≠ firstNode after) :
    insertBefore new (before ++ after) (firstNode after) = before ++ new :: after := by
  induction before with
  | nil =>
      cases after with
      | nil => rfl
      | cons head tail => simp [insertBefore, firstNode]
  | cons head tail ih =>
      have different := absent head List.mem_cons_self
      simp only [List.cons_append, insertBefore, if_neg different]
      rw [ih fun other member => absent other (List.mem_cons_of_mem head member)]

theorem next_iteratorTo {before after : List (Nat × Value)} {node : Nat × Value}
    (split : list.nodes = before ++ node :: after) :
    list.next (list.iteratorTo (node :: after)) = list.iteratorTo after := by
  change ({ owner := list.name, node := nodeAfter list.nodes node.1 } : Iterator) = _
  rw [split, nodeAfter_append (split_distinct split).1]
  rfl

theorem value?_iteratorTo {before after : List (Nat × Value)} {node : Nat × Value}
    (split : list.nodes = before ++ node :: after) :
    list.value? (list.iteratorTo (node :: after)) = some node.2 := by
  simp only [LinkedList.value?, LinkedList.iteratorTo, firstNode, Option.bind_some, split, if_true]
  exact valueAt_append (split_distinct split).1

theorem begin_eq_iteratorTo : list.begin = list.iteratorTo list.nodes := rfl

theorem insert_nodes {before after : List (Nat × Value)}
    (split : list.nodes = before ++ after) (value : Value) :
    (list.insert (list.iteratorTo after) value).nodes =
      before ++ (list.fresh, value) :: after := by
  simp only [LinkedList.insert, LinkedList.iteratorTo, split]
  refine insertBefore_append _ ?_
  cases after with
  | nil => intro other member; simp [firstNode]
  | cons head tail =>
      intro other member
      simpa [firstNode] using (split_distinct split).1 other member

theorem erase_nodes {before after : List (Nat × Value)} {node : Nat × Value}
    (split : list.nodes = before ++ node :: after) :
    (list.erase (list.iteratorTo (node :: after))).nodes = before ++ after := by
  obtain ⟨left, right⟩ := split_distinct split
  simp only [LinkedList.erase, LinkedList.iteratorTo, firstNode, split, List.filter_append]
  rw [List.filter_eq_self.mpr (by intro other member; simpa using left other member),
    List.filter_cons_of_neg (by simp),
    List.filter_eq_self.mpr (by intro other member; simpa using right other member)]

/-- The nodes from a position up to a later one go, and no others. -/
theorem eraseRange_nodes {last : Iterator} {before segment after : List (Nat × Value)}
    {rounds : Nat} (split : list.nodes = before ++ (segment ++ after))
    (here : last = list.iteratorTo after) (enough : segment.length ≤ rounds) :
    (LinkedList.eraseRange last rounds list (list.iteratorTo (segment ++ after))).nodes =
      before ++ after := by
  induction segment generalizing list rounds with
  | nil =>
      cases rounds with
      | zero => exact split
      | succ rounds =>
          rw [LinkedList.eraseRange, List.nil_append, if_pos here.symm]
          exact split
  | cons node rest ih =>
      cases rounds with
      | zero =>
          rw [List.length_cons] at enough
          omega
      | succ rounds =>
          have split' : list.nodes = before ++ node :: (rest ++ after) := split
          have next : list.next (list.iteratorTo (node :: rest ++ after)) =
              list.iteratorTo (rest ++ after) := next_iteratorTo split'
          have different : list.iteratorTo (node :: rest ++ after) ≠ last := by
            intro same
            cases after with
            | nil =>
                rw [here] at same
                cases congrArg Iterator.node same
            | cons other later =>
                rw [here] at same
                have equal : node.1 = other.1 := Option.some.inj (congrArg Iterator.node same)
                have member : other ∈ rest ++ other :: later :=
                  List.mem_append_right _ List.mem_cons_self
                exact (split_distinct split').2 other member equal.symm
          rw [LinkedList.eraseRange, if_neg different, next]
          apply ih (erase_nodes split')
          · exact here
          · rw [List.length_cons] at enough
            omega

theorem valueAt_some {nodes : List (Nat × Value)} {wanted : Nat} {value : Value}
    (found : valueAt nodes wanted = some value) :
    ∃ before after, nodes = before ++ (wanted, value) :: after := by
  induction nodes with
  | nil => cases found
  | cons head tail ih =>
      simp only [valueAt] at found
      split at found
      · rename_i same
        cases found
        exact ⟨[], tail, by rw [← same]; rfl⟩
      · obtain ⟨before, after, split⟩ := ih found
        exact ⟨head :: before, after, by rw [split]; rfl⟩

/-- An iterator that can be dereferenced stands at a split of the nodes. -/
theorem exists_split {position : Iterator} {value : Value}
    (found : list.value? position = some value) :
    ∃ before node after, list.nodes = before ++ (node, value) :: after ∧
      position = list.iteratorTo ((node, value) :: after) := by
  rcases position with ⟨owner, node⟩
  unfold LinkedList.value? at found
  split at found
  · rename_i same
    cases node with
    | none => cases found
    | some node =>
        obtain ⟨before, after, split⟩ := valueAt_some found
        exact ⟨before, node, after, split, congrArg (Iterator.mk · (some node)) same⟩
  · cases found

theorem iteratorTo_injective {first second before before' : List (Nat × Value)}
    (split : list.nodes = before ++ first) (split' : list.nodes = before' ++ second)
    (same : list.iteratorTo first = list.iteratorTo second) : first = second := by
  have sameNode : firstNode first = firstNode second := congrArg Iterator.node same
  cases first with
  | nil =>
      cases second with
      | nil => rfl
      | cons head tail => cases sameNode
  | cons head tail =>
      cases second with
      | nil => cases sameNode
      | cons head' tail' =>
          have sameName : head.1 = head'.1 := Option.some.inj sameNode
          have aligned : before = before' ∧ head :: tail = head' :: tail' := by
            have both : before ++ head :: tail = before' ++ head' :: tail' :=
              split.symm.trans split'
            have absent := (split_distinct split).1
            have absent' := (split_distinct split').1
            rcases List.append_eq_append_iff.mp both with
              ⟨middle, left, right⟩ | ⟨middle, left, right⟩
            · cases middle with
              | nil => simp_all
              | cons node rest =>
                  simp only [List.cons_append, List.cons.injEq] at right
                  have member : head ∈ before' := by simp [left, right.1]
                  exact absurd sameName (absent' head member)
            · cases middle with
              | nil => simp_all
              | cons node rest =>
                  simp only [List.cons_append, List.cons.injEq] at right
                  have member : head' ∈ before := by simp [left, right.1]
                  exact absurd sameName.symm (absent head' member)
          exact aligned.2

/-- The first position of a suffix, unless it is past the end, has a value. -/
theorem iteratorTo_value {before suffix : List (Nat × Value)}
    (split : list.nodes = before ++ suffix) (inside : (list.iteratorTo suffix).node ≠ none) :
    ∃ value, list.value? (list.iteratorTo suffix) = some value := by
  cases suffix with
  | nil => exact absurd rfl inside
  | cons node after => exact ⟨node.2, value?_iteratorTo split⟩

theorem begin_value (inside : list.begin.node ≠ none) :
    ∃ value, list.value? list.begin = some value :=
  iteratorTo_value (List.nil_append list.nodes).symm inside

theorem next_value {position : Iterator} {value : Value}
    (found : list.value? position = some value) (inside : (list.next position).node ≠ none) :
    ∃ later, list.value? (list.next position) = some later := by
  obtain ⟨before, node, after, split, same⟩ := exists_split found
  rw [same, next_iteratorTo split] at inside ⊢
  have rest : list.nodes = (before ++ [(node, value)]) ++ after := by
    rw [split, List.append_assoc]
    rfl
  exact iteratorTo_value rest inside

theorem value?_mem {position : Iterator} {value : Value}
    (found : list.value? position = some value) : value ∈ list.values := by
  obtain ⟨before, node, after, split, _⟩ := exists_split found
  simp [LinkedList.values, split]

theorem node_of_value? {position : Iterator} {value : Value}
    (found : list.value? position = some value) : position.node ≠ none := by
  obtain ⟨before, node, after, split, rfl⟩ := exists_split found
  simp [LinkedList.iteratorTo, firstNode]

/-! ### Iterators that stay valid -/

/-- A position of this list that no removal has invalidated. -/
def LinkedList.Valid (list : LinkedList Value) (position : Iterator) : Prop :=
  position = list.past ∨ ∃ value, list.value? position = some value

theorem value?_of_mem {node : Nat × Value} (member : node ∈ list.nodes) :
    list.value? { owner := list.name, node := some node.1 } = some node.2 := by
  obtain ⟨before, after, split⟩ := List.append_of_mem member
  exact value?_iteratorTo split

theorem iteratorTo_valid {suffix : List (Nat × Value)}
    (part : ∀ node ∈ suffix, node ∈ list.nodes) : list.Valid (list.iteratorTo suffix) := by
  cases suffix with
  | nil => exact .inl rfl
  | cons node after => exact .inr ⟨node.2, value?_of_mem (part node List.mem_cons_self)⟩

theorem begin_valid : list.Valid list.begin :=
  iteratorTo_valid fun _ member => member

theorem next_valid {position : Iterator} {value : Value}
    (found : list.value? position = some value) : list.Valid (list.next position) := by
  obtain ⟨before, node, after, split, rfl⟩ := exists_split found
  rw [next_iteratorTo split]
  refine iteratorTo_valid fun later member => ?_
  rw [split]
  exact List.mem_append_right _ (List.mem_cons_of_mem _ member)

/-- The successor of an erased node survives it. -/
theorem erase_valid {position : Iterator} {value : Value}
    (found : list.value? position = some value) :
    (list.erase position).Valid (list.next position) := by
  obtain ⟨before, node, after, split, rfl⟩ := exists_split found
  rw [next_iteratorTo split]
  let erased := list.erase (list.iteratorTo ((node, value) :: after))
  change erased.Valid (erased.iteratorTo after)
  refine iteratorTo_valid fun later member => ?_
  rw [erase_nodes split]
  exact List.mem_append_right _ member

theorem LinkedList.Valid.owner {it : Iterator} (valid : list.Valid it) :
    it.owner = list.name := by
  rcases valid with rfl | ⟨value, found⟩
  · rfl
  · unfold LinkedList.value? at found
    split at found
    · assumption
    · cases found

/-- An erased node is no position. -/
theorem not_valid_erase {it : Iterator} (inside : it ≠ list.past) :
    ¬ (list.erase it).Valid it := by
  rintro (atEnd | ⟨value, found⟩)
  · exact inside atEnd
  · obtain ⟨before, node, after, split, same⟩ := exists_split found
    have member : (node, value) ∈ (list.erase it).nodes := by
      rw [split]
      exact List.mem_append_right _ List.mem_cons_self
    have kept := (List.mem_filter.mp member).2
    rw [same] at kept
    simp [LinkedList.iteratorTo, firstNode] at kept

theorem insert_valid {position : Iterator} (valid : list.Valid position) (place : Iterator)
    (value : Value) : (list.insert place value).Valid position := by
  rcases valid with rfl | ⟨held, found⟩
  · exact .inl rfl
  · obtain ⟨before, node, after, split, rfl⟩ := exists_split found
    have member : (node, held) ∈ (list.insert place value).nodes := by
      refine (insertBefore_perm _ _ _).mem_iff.mpr (List.mem_cons_of_mem _ ?_)
      rw [split]
      exact List.mem_append_right _ List.mem_cons_self
    exact .inr ⟨held, value?_of_mem member⟩

theorem erase_values {position : Iterator} {value : Value}
    (found : list.value? position = some value) :
    ∃ before after, list.values = before ++ value :: after ∧
      (list.erase position).values = before ++ after := by
  obtain ⟨before, node, after, split, rfl⟩ := exists_split found
  refine ⟨before.map Prod.snd, after.map Prod.snd, ?_, ?_⟩
  · simp [LinkedList.values, split]
  · simp [LinkedList.values, erase_nodes split]

/-! ### Other values at the same positions -/

section Map

variable {Image : Type}

def mapNode (f : Value → Image) (node : Nat × Value) : Nat × Image := (node.1, f node.2)

@[simp] theorem mapNode_name (f : Value → Image) (node : Nat × Value) :
    (mapNode f node).1 = node.1 := rfl

private theorem map_mapNode_names (f : Value → Image) (nodes : List (Nat × Value)) :
    (nodes.map (mapNode f)).map Prod.fst = nodes.map Prod.fst := by
  rw [List.map_map]
  rfl

def LinkedList.map (f : Value → Image) (list : LinkedList Value) : LinkedList Image where
  name := list.name
  nodes := list.nodes.map (mapNode f)
  fresh := list.fresh
  below := by
    intro node member
    obtain ⟨old, inside, rfl⟩ := List.mem_map.mp member
    exact list.below old inside
  distinct := by
    rw [map_mapNode_names]
    exact list.distinct

@[simp] theorem LinkedList.map_name (f : Value → Image) (list : LinkedList Value) :
    (list.map f).name = list.name := rfl

@[simp] theorem LinkedList.map_nodes (f : Value → Image) (list : LinkedList Value) :
    (list.map f).nodes = list.nodes.map (mapNode f) := rfl

@[simp] theorem LinkedList.map_past (f : Value → Image) (list : LinkedList Value) :
    (list.map f).past = list.past := rfl

theorem LinkedList.ext {first second : LinkedList Value} (name : first.name = second.name)
    (nodes : first.nodes = second.nodes) (fresh : first.fresh = second.fresh) :
    first = second := by
  cases first
  cases second
  cases name
  cases nodes
  cases fresh
  rfl

theorem firstNode_map (f : Value → Image) (nodes : List (Nat × Value)) :
    firstNode (nodes.map (mapNode f)) = firstNode nodes := by
  cases nodes <;> rfl

theorem nodeAfter_map (f : Value → Image) (nodes : List (Nat × Value)) (wanted : Nat) :
    nodeAfter (nodes.map (mapNode f)) wanted = nodeAfter nodes wanted := by
  induction nodes with
  | nil => rfl
  | cons node rest ih =>
      simp only [List.map_cons, nodeAfter, ih, firstNode_map]
      rfl

@[simp] theorem LinkedList.map_next (f : Value → Image) (list : LinkedList Value)
    (position : Iterator) : (list.map f).next position = list.next position := by
  have after : nodeAfter (list.nodes.map (mapNode f)) = nodeAfter list.nodes :=
    funext fun wanted => nodeAfter_map f list.nodes wanted
  simp only [LinkedList.next, LinkedList.map_nodes, LinkedList.map_name, after]

@[simp] theorem LinkedList.map_begin (f : Value → Image) (list : LinkedList Value) :
    (list.map f).begin = list.begin := by
  simp only [LinkedList.begin, LinkedList.map_nodes, LinkedList.map_name, firstNode_map]

theorem insertBefore_map (f : Value → Image) (new : Nat × Value) (nodes : List (Nat × Value))
    (position : Option Nat) :
    insertBefore (mapNode f new) (nodes.map (mapNode f)) position =
      (insertBefore new nodes position).map (mapNode f) := by
  induction nodes with
  | nil => rfl
  | cons node rest ih =>
      simp only [List.map_cons, insertBefore, ih, mapNode_name]
      by_cases here : some node.1 = position
      · rw [if_pos here, if_pos here, List.map_cons, List.map_cons]
      · rw [if_neg here, if_neg here, List.map_cons]

theorem LinkedList.map_insert (f : Value → Image) (list : LinkedList Value)
    (position : Iterator) (value : Value) :
    (list.map f).insert position (f value) = (list.insert position value).map f := by
  apply LinkedList.ext
  · rfl
  · exact insertBefore_map f (list.fresh, value) list.nodes position.node
  · rfl

theorem LinkedList.map_erase (f : Value → Image) (list : LinkedList Value)
    (position : Iterator) : (list.map f).erase position = (list.erase position).map f := by
  apply LinkedList.ext
  · rfl
  · simp only [LinkedList.erase, LinkedList.map_nodes, List.filter_map]
    rfl
  · rfl

theorem LinkedList.map_eraseRange (f : Value → Image) (last : Iterator) (rounds : Nat)
    (list : LinkedList Value) (first : Iterator) :
    LinkedList.eraseRange last rounds (list.map f) first =
      (LinkedList.eraseRange last rounds list first).map f := by
  induction rounds generalizing list first with
  | zero => rfl
  | succ rounds ih =>
      unfold LinkedList.eraseRange
      by_cases done : first = last
      · rw [if_pos done, if_pos done]
      · rw [if_neg done, if_neg done, LinkedList.map_erase, LinkedList.map_next, ih]

end Map

end LinkedLists
