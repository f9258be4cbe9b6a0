/-
What a slot list stands for: the sequence of its elements, each with the key it was
stored under.  The list itself does not remember these keys, so the sequence is kept
beside it, and every operation does to the sequence what it is for.
-/

import Signals2.Library.Runs
import Signals2.SlotGroupsOperations

namespace Signals2

open LinkedLists OrderedInsertion

variable {Group Value : Type}

/-! ### Values do not matter -/

namespace GroupedList

variable {Image : Type}

def map (f : Value → Image) (g : GroupedList Group Value) : GroupedList Group Image where
  list := g.list.map f
  groupMap := g.groupMap
  mapCompare := g.mapCompare
  groupKeyCompare := g.groupKeyCompare

variable (f : Value → Image) (g : GroupedList Group Value) (key : GroupKey Group)

@[simp] theorem map_getListIterator (mapIt : Nat) :
    (g.map f).getListIterator mapIt = g.getListIterator mapIt := rfl

@[simp] theorem map_lowerBound : (g.map f).lowerBound key = g.lowerBound key := rfl

@[simp] theorem map_upperBound : (g.map f).upperBound key = g.upperBound key := rfl

theorem map_mInsert (mapIt : Nat) (value : Value) :
    (g.map f).mInsert mapIt key (f value) = (g.mInsert mapIt key value).map f := by
  have inserted := LinkedList.map_insert f g.list (g.getListIterator mapIt) value
  unfold mInsert map
  rw [← inserted]
  rfl

theorem map_pushFront (value : Value) :
    (g.map f).pushFront key (f value) = (g.pushFront key value).map f :=
  map_mInsert f g key _ value

theorem map_pushBack (value : Value) :
    (g.map f).pushBack key (f value) = (g.pushBack key value).map f :=
  map_mInsert f g key _ value

theorem map_erase (it : Iterator) :
    (g.map f).erase key it = (g.erase key it).map fun erased => (erased.1.map f, erased.2) := by
  have same : ∀ key1 key2, (g.map f).weaklyEquivalent key1 key2 = g.weaklyEquivalent key1 key2 :=
    fun _ _ => rfl
  simp only [GroupedList.erase, same, map_upperBound]
  simp only [map, LinkedList.map_past, LinkedList.map_next, LinkedList.map_erase]
  split
  · rfl
  · split
    · rfl
    · split <;> rfl

theorem map_eraseKey : (g.map f).eraseKey key = (g.eraseKey key).map f := by
  simp only [eraseKey, map_getListIterator, map_upperBound]
  have length : (g.map f).list.nodes.length = g.list.nodes.length := by
    simp [map]
  rw [length]
  simp only [map, LinkedList.map_eraseRange]
  split <;> rfl

private theorem map_advanceTogether (other this : LinkedList Value) (otherNext : Iterator)
    (rounds : Nat) (otherIt thisIt : Iterator) :
    advanceTogether (other.map f) (this.map f) otherNext rounds otherIt thisIt =
      advanceTogether other this otherNext rounds otherIt thisIt := by
  induction rounds generalizing otherIt thisIt with
  | zero => rfl
  | succ rounds ih => simp only [advanceTogether, LinkedList.map_next, ih]

private theorem map_fixUpMap (other this : LinkedList Value)
    (entries : List (GroupKey Group × Iterator)) (thisIt : Iterator) :
    fixUpMap (other.map f) (this.map f) entries thisIt = fixUpMap other this entries thisIt := by
  induction entries generalizing thisIt with
  | nil => rfl
  | cons entry rest ih =>
      have next : iteratorOfRest (other.map f) rest = iteratorOfRest other rest := by
        cases rest <;> rfl
      have length : (other.map f).nodes.length = other.nodes.length := by simp
      simp only [fixUpMap, next, length, map_advanceTogether, ih]

theorem map_copy (name : Nat) : (g.map f).copy name = (g.copy name).map f := by
  have copied : (g.map f).list.copyAs name = (g.list.copyAs name).map f := rfl
  simp only [copy, copied, LinkedList.map_begin]
  simp only [map, map_fixUpMap]

end GroupedList

/-! ### Elements and operations -/

/-- A value with the key it was stored under. -/
abbrev Stored (Group Value : Type) := GroupKey Group × Value

/-- A slot list, and the elements it holds by their list nodes. -/
structure Listing (Group Value : Type) where
  list : GroupedList Group Value
  elements : List (Nat × Stored Group Value)

inductive ListAction (Group Value : Type) where
  | pushFront (key : GroupKey Group) (value : Value)
  | pushBack (key : GroupKey Group) (value : Value)
  | eraseKey (key : GroupKey Group)
  | erase (key : GroupKey Group) (it : Iterator)
  | clear

/-- `none` when an assertion fails. -/
def GroupedList.act (g : GroupedList Group Value) :
    ListAction Group Value → Option (GroupedList Group Value)
  | .pushFront key value => some (g.pushFront key value)
  | .pushBack key value => some (g.pushBack key value)
  | .eraseKey key => some (g.eraseKey key)
  | .erase key it => (g.erase key it).map Prod.fst
  | .clear => some g.clear

/-- What an operation is for. -/
def ListAction.apply (compare : Group → Group → Bool) (new : Nat)
    (elements : List (Nat × Stored Group Value)) :
    ListAction Group Value → List (Nat × Stored Group Value)
  | .pushFront key value =>
      insertWhere (fun other => groupKeyLess compare other.2.1 key) (new, key, value) elements
  | .pushBack key value =>
      insertWhere (fun other => !groupKeyLess compare key other.2.1) (new, key, value) elements
  | .eraseKey key =>
      elements.filter fun other =>
        groupKeyLess compare other.2.1 key || groupKeyLess compare key other.2.1
  | .erase _ it => elements.filter fun other => some other.1 ≠ it.node
  | .clear => []

namespace Listing

def construct (name : Nat) (defaultCompare groupCompare : Group → Group → Bool) :
    Listing Group Value :=
  { list := GroupedList.construct name defaultCompare groupCompare
    elements := [] }

def step (compare : Group → Group → Bool) (s : Listing Group Value)
    (a : ListAction Group Value) : Option (Listing Group Value) :=
  (s.list.act a).map fun list =>
    { list := list
      elements := a.apply compare s.list.list.fresh s.elements }

/-- Only an element that is there is erased, under the key it was stored under. -/
def Given (s : Listing Group Value) (a : ListAction Group Value) : Prop :=
  ∀ key it, a = .erase key it →
    ∃ e ∈ s.elements, e.2.1 = key ∧ it = { owner := s.list.list.name, node := some e.1 }

/-- The list is one of values that remember their keys, with the keys forgotten. -/
def Represented (compare : Group → Group → Bool) (s : Listing Group Value) : Prop :=
  ∃ keyed : GroupedList Group (Stored Group Value),
    keyed.Consistent compare Prod.fst ∧ keyed.list.nodes = s.elements ∧
      keyed.map Prod.snd = s.list

/-- The position of the first of these elements. -/
def position (s : Listing Group Value) (suffix : List (Nat × Stored Group Value)) : Iterator :=
  { owner := s.list.list.name, node := firstNode suffix }

variable {compare : Group → Group → Bool} {s s' : Listing Group Value}
variable {a : ListAction Group Value}

theorem construct_represented (name : Nat) (compare : Group → Group → Bool) :
    (construct name compare compare : Listing Group Value).Represented compare :=
  ⟨GroupedList.construct name compare compare, GroupedList.construct_consistent _ _ _, rfl, rfl⟩

theorem Represented.erase (represented : s.Represented compare) (order : StrictWeak compare)
    {before after : List (Nat × Stored Group Value)} {e : Nat × Stored Group Value}
    (split : s.elements = before ++ e :: after) :
    ∃ list, s.list.erase e.2.1 { owner := s.list.list.name, node := some e.1 } =
        some (list, s.position after) ∧
      Represented compare { list := list, elements := before ++ after } := by
  obtain ⟨keyed, consistent, nodes, same⟩ := represented
  have whole : keyed.list.nodes = before ++ e :: after := nodes.trans split
  have found : keyed.list.value? (keyed.list.iteratorTo (e :: after)) = some e.2 :=
    value?_iteratorTo whole
  obtain ⟨erased, result, consistent', list⟩ := consistent.erase order found
  have named : s.list.list.name = keyed.list.name := by rw [← same]; rfl
  refine ⟨erased.map Prod.snd, ?_, erased, consistent', ?_, rfl⟩
  · have moved := GroupedList.map_erase Prod.snd keyed e.2.1 (keyed.list.iteratorTo (e :: after))
    rw [result, next_iteratorTo whole, same] at moved
    simp only [position, named]
    exact moved
  · rw [list]
    exact erase_nodes whole

/-- Erasing by node removes this element only. -/
theorem Represented.erased_elements (represented : s.Represented compare)
    {before after : List (Nat × Stored Group Value)} {e : Nat × Stored Group Value}
    (split : s.elements = before ++ e :: after) :
    s.elements.filter (fun other => some other.1 ≠ some e.1) = before ++ after := by
  obtain ⟨keyed, _, nodes, _⟩ := represented
  rw [← nodes]
  exact erase_nodes (nodes.trans split)

theorem Represented.step (represented : s.Represented compare) (order : StrictWeak compare)
    (given : s.Given a) : ∃ s', s.step compare a = some s' ∧ s'.Represented compare := by
  cases a with
  | pushFront key value =>
      obtain ⟨keyed, consistent, nodes, same⟩ := represented
      have keyOf : Prod.fst (key, value) = key := rfl
      obtain ⟨consistent', nodes'⟩ := consistent.pushFront order keyOf
      refine ⟨_, rfl, keyed.pushFront key (key, value), consistent', ?_, ?_⟩
      · rw [nodes', nodes, ← same]
        rfl
      · rw [← same]
        exact (GroupedList.map_pushFront Prod.snd keyed key (key, value)).symm
  | pushBack key value =>
      obtain ⟨keyed, consistent, nodes, same⟩ := represented
      have keyOf : Prod.fst (key, value) = key := rfl
      obtain ⟨consistent', nodes'⟩ := consistent.pushBack order keyOf
      refine ⟨_, rfl, keyed.pushBack key (key, value), consistent', ?_, ?_⟩
      · rw [nodes', nodes, ← same]
        rfl
      · rw [← same]
        exact (GroupedList.map_pushBack Prod.snd keyed key (key, value)).symm
  | eraseKey key =>
      obtain ⟨keyed, consistent, nodes, same⟩ := represented
      obtain ⟨consistent', nodes'⟩ := consistent.eraseKey order key
      refine ⟨_, rfl, keyed.eraseKey key, consistent', ?_, ?_⟩
      · rw [nodes', nodes]
        rfl
      · rw [← same]
        exact (GroupedList.map_eraseKey Prod.snd keyed key).symm
  | erase key it =>
      obtain ⟨e, member, rfl, rfl⟩ := given key it rfl
      obtain ⟨before, after, split⟩ := List.append_of_mem member
      obtain ⟨list, erased, represented'⟩ := represented.erase order split
      refine ⟨{ list := list, elements := before ++ after }, ?_, represented'⟩
      simp only [Listing.step, GroupedList.act, erased, Option.map_some, ListAction.apply,
        represented.erased_elements split]
  | clear =>
      obtain ⟨keyed, consistent, nodes, same⟩ := represented
      refine ⟨_, rfl, keyed.clear, consistent.clear, rfl, ?_⟩
      rw [← same]
      rfl

/-! ### What the representation says -/

/-- The list holds the elements in the order of their keys, and the map has one entry
for each class, which points at its first element. -/
structure Kept (compare : Group → Group → Bool) (s : Listing Group Value) : Prop where
  nodes : s.list.list.nodes = s.elements.map (mapNode Prod.snd)
  sorted : Sorted (groupKeyLess compare) (fun e => e.2.1) s.elements
  increasing : s.list.groupMap.Pairwise fun earlier later =>
    groupKeyLess compare earlier.1 later.1 = true
  heads : ∀ entry ∈ s.list.groupMap, ∃ before e after, s.elements = before ++ e :: after ∧
    entry.2 = s.position (e :: after) ∧ Equivalent compare e.2.1 entry.1 ∧
      ∀ other ∈ before, groupKeyLess compare other.2.1 entry.1 = true
  covered : ∀ e ∈ s.elements, ∃ entry ∈ s.list.groupMap, Equivalent compare e.2.1 entry.1

theorem Represented.kept (represented : s.Represented compare) (order : StrictWeak compare) :
    Kept compare s := by
  obtain ⟨keyed, consistent, nodes, same⟩ := represented
  have sorted := consistent.sorted order
  obtain ⟨blocks, rep⟩ := consistent
  have entries : s.list.groupMap = blocks.map (Block.entry keyed.list.name) := by
    rw [← rep.groupMap, ← same]
    rfl
  have elements : s.elements = allNodes blocks := nodes.symm.trans rep.nodes
  refine ⟨?_, ?_, ?_, ?_, ?_⟩
  · rw [← nodes, ← same]
    rfl
  · rw [← nodes]
    exact sorted
  · rw [entries]
    exact List.pairwise_map.mpr rep.ordered.increasing
  · intro entry member
    rw [entries] at member
    obtain ⟨block, inBlocks, rfl⟩ := List.mem_map.mp member
    obtain ⟨earlier, later, rfl⟩ := List.append_of_mem inBlocks
    refine ⟨allNodes earlier, block.head, block.rest ++ allNodes later, ?_, ?_, ?_, ?_⟩
    · rw [elements, allNodes_append, allNodes_cons]
      rfl
    · rw [position, ← same]
      rfl
    · exact rep.ordered.keyed block inBlocks block.head List.mem_cons_self
    · intro other inside
      obtain ⟨front, inEarlier, there⟩ := List.mem_flatMap.mp inside
      have keyed' := rep.ordered.keyed front (List.mem_append_left _ inEarlier) other there
      have below := (List.pairwise_append.mp rep.ordered.increasing).2.2 front inEarlier block
        List.mem_cons_self
      exact (groupKeyLess_strictWeak order).less_of_notLess_of_less keyed'.2 below
  · intro e member
    rw [elements] at member
    obtain ⟨block, inBlocks, inside⟩ := List.mem_flatMap.mp member
    refine ⟨block.entry keyed.list.name, ?_, rep.ordered.keyed block inBlocks e inside⟩
    rw [entries]
    exact List.mem_map_of_mem inBlocks

/-! ### What the operations give -/

def below (compare : Group → Group → Bool) (s : Listing Group Value) (key : GroupKey Group) :
    List (Nat × Stored Group Value) :=
  s.elements.filter fun e => groupKeyLess compare e.2.1 key

/-- The elements of the class of a key. -/
def inClass (compare : Group → Group → Bool) (s : Listing Group Value) (key : GroupKey Group) :
    List (Nat × Stored Group Value) :=
  s.elements.filter fun e => !groupKeyLess compare e.2.1 key && !groupKeyLess compare key e.2.1

def above (compare : Group → Group → Bool) (s : Listing Group Value) (key : GroupKey Group) :
    List (Nat × Stored Group Value) :=
  s.elements.filter fun e => groupKeyLess compare key e.2.1

/-- The two bounds delimit a class. -/
structure Bounded (compare : Group → Group → Bool) (s : Listing Group Value)
    (key : GroupKey Group) : Prop where
  split : s.elements = below compare s key ++ (inClass compare s key ++ above compare s key)
  lower : s.list.lowerBound key = s.position (inClass compare s key ++ above compare s key)
  upper : s.list.upperBound key = s.position (above compare s key)

theorem Represented.bounded (represented : s.Represented compare) (order : StrictWeak compare)
    (key : GroupKey Group) : Bounded compare s key := by
  have weak := groupKeyLess_strictWeak order
  obtain ⟨keyed, consistent, nodes, same⟩ := represented
  obtain ⟨front, middle, back, split, left, inside, right, lower, upper⟩ :=
    consistent.class_range order key
  have whole : s.elements = front ++ (middle ++ back) := by
    rw [← nodes, split, List.append_assoc]
  have notAfter : ∀ e ∈ front, groupKeyLess compare key e.2.1 = false :=
    fun e member => weak.not_back (left e member)
  have notBefore : ∀ e ∈ back, groupKeyLess compare e.2.1 key = false :=
    fun e member => weak.not_back (right e member)
  have isBelow : below compare s key = front := by
    rw [below, whole, List.filter_append, List.filter_append]
    rw [List.filter_eq_self.mpr left]
    rw [List.filter_eq_nil_iff.mpr fun e (member : e ∈ middle) => by simp [(inside e member).1]]
    rw [List.filter_eq_nil_iff.mpr fun e (member : e ∈ back) => by simp [notBefore e member]]
    rw [List.append_nil, List.append_nil]
  have isInClass : inClass compare s key = middle := by
    rw [inClass, whole, List.filter_append, List.filter_append]
    rw [List.filter_eq_nil_iff.mpr fun e (member : e ∈ front) => by simp [left e member]]
    rw [List.filter_eq_self.mpr fun e (member : e ∈ middle) => by
      simp [(inside e member).1, (inside e member).2]]
    rw [List.filter_eq_nil_iff.mpr fun e (member : e ∈ back) => by simp [right e member]]
    rw [List.append_nil, List.nil_append]
  have isAbove : above compare s key = back := by
    rw [above, whole, List.filter_append, List.filter_append]
    rw [List.filter_eq_nil_iff.mpr fun e (member : e ∈ front) => by simp [notAfter e member]]
    rw [List.filter_eq_nil_iff.mpr fun e (member : e ∈ middle) => by simp [(inside e member).2]]
    rw [List.filter_eq_self.mpr right]
    rfl
  refine ⟨?_, ?_, ?_⟩
  · rw [isBelow, isInClass, isAbove]
    exact whole
  · rw [isInClass, isAbove, position, ← same]
    exact lower
  · rw [isAbove, position, ← same]
    exact upper

/-- What every operation does to the elements, and what it answers. -/
structure Served (compare : Group → Group → Bool) (s : Listing Group Value) : Prop where
  bounded : ∀ key, Bounded compare s key
  pushedBack : ∀ key value, ∃ before after s', s.elements = before ++ after ∧
    s.step compare (.pushBack key value) = some s' ∧
    s'.elements = before ++ (s.list.list.fresh, key, value) :: after ∧
    (∀ e ∈ before, groupKeyLess compare key e.2.1 = false) ∧
    ∀ e ∈ after, groupKeyLess compare key e.2.1 = true
  pushedFront : ∀ key value, ∃ before after s', s.elements = before ++ after ∧
    s.step compare (.pushFront key value) = some s' ∧
    s'.elements = before ++ (s.list.list.fresh, key, value) :: after ∧
    (∀ e ∈ before, groupKeyLess compare e.2.1 key = true) ∧
    ∀ e ∈ after, groupKeyLess compare e.2.1 key = false
  erased : ∀ before e after, s.elements = before ++ e :: after →
    ∃ list, s.list.erase e.2.1 (s.position (e :: after)) = some (list, s.position after) ∧
      s.step compare (.erase e.2.1 (s.position (e :: after))) =
        some { list := list, elements := before ++ after }
  erasedKey : ∀ key, ∃ s', s.step compare (.eraseKey key) = some s' ∧
    s'.elements = below compare s key ++ above compare s key
  cleared : ∃ s', s.step compare .clear = some s' ∧ s'.elements = [] ∧ s'.list.list.nodes = []

theorem Represented.served (represented : s.Represented compare) (order : StrictWeak compare) :
    Served compare s := by
  have weak := groupKeyLess_strictWeak order
  have kept := represented.kept order
  refine ⟨represented.bounded order, ?_, ?_, ?_, ?_, ?_⟩
  · intro key value
    have cut := kept.sorted.cut_notAbove weak key
    obtain ⟨before, after, split, placed, left, right⟩ :=
      cut.insertWhere_split (s.list.list.fresh, key, value)
    refine ⟨before, after, _, split, rfl, placed, ?_, ?_⟩
    · intro e member
      simpa using left e member
    · intro e member
      simpa using right e member
  · intro key value
    have cut := kept.sorted.cut_below weak key
    obtain ⟨before, after, split, placed, left, right⟩ :=
      cut.insertWhere_split (s.list.list.fresh, key, value)
    exact ⟨before, after, _, split, rfl, placed, left, right⟩
  · intro before e after split
    obtain ⟨list, erased, _⟩ := represented.erase order split
    refine ⟨list, erased, ?_⟩
    have here : s.position (e :: after) = { owner := s.list.list.name, node := some e.1 } := rfl
    rw [here]
    simp only [Listing.step, GroupedList.act, erased, Option.map_some, ListAction.apply,
      represented.erased_elements split]
  · intro key
    refine ⟨_, rfl, ?_⟩
    have split := (represented.bounded order key).split
    simp only [ListAction.apply]
    nth_rewrite 1 [split]
    rw [List.filter_append, List.filter_append]
    rw [List.filter_eq_self.mpr fun e (member : e ∈ below compare s key) => by
      simp [(List.mem_filter.mp member).2]]
    rw [List.filter_eq_nil_iff.mpr fun e (member : e ∈ inClass compare s key) => by
      simpa using (List.mem_filter.mp member).2]
    rw [List.filter_eq_self.mpr fun e (member : e ∈ above compare s key) => by
      simp [(List.mem_filter.mp member).2]]
    rfl
  · exact ⟨_, rfl, rfl, rfl⟩

theorem Represented.run (represented : s.Represented compare) (order : StrictWeak compare)
    {actions : List (ListAction Group Value)}
    (given : Runs.Guarded (Listing.step compare) Given s actions) :
    ∃ s', Runs.run (Listing.step compare) s actions = some s' ∧ s'.Represented compare := by
  have progress : ∀ (s : Listing Group Value) (a : ListAction Group Value),
      s.Represented compare → s.Given a →
        ∃ next, s.step compare a = some next ∧ next.Represented compare :=
    fun _ _ represented given => represented.step order given
  exact Runs.run_total progress represented given

/-- In every run of operations no assertion fails, the list holds its elements in order
with the heads of their classes in the map, and every operation does what it is for. -/
theorem grouped_list_runs (order : StrictWeak compare) {name : Nat}
    {actions : List (ListAction Group Value)}
    (given : Runs.Guarded (Listing.step compare) Given (construct name compare compare) actions) :
    ∃ s, Runs.run (Listing.step compare) (construct name compare compare) actions = some s ∧
      Kept compare s ∧ Served compare s := by
  obtain ⟨s, ran, represented⟩ := (construct_represented name compare).run order given
  exact ⟨s, ran, represented.kept order, represented.served order⟩

/-! ### Copies -/

def copy (s : Listing Group Value) (name : Nat) : Listing Group Value :=
  { list := s.list.copy name
    elements := s.elements }

theorem Represented.copy (represented : s.Represented compare) (name : Nat) :
    (s.copy name).Represented compare := by
  obtain ⟨keyed, consistent, nodes, same⟩ := represented
  refine ⟨keyed.copy name, consistent.copy name, nodes, ?_⟩
  rw [Listing.copy, ← same]
  exact (GroupedList.map_copy Prod.snd keyed name).symm

end Listing

/-- The same operation on another list with the same elements. -/
def ListAction.inList (name : Nat) : ListAction Group Value → ListAction Group Value
  | .erase key it => .erase key { it with owner := name }
  | a => a

/-- The iterators that an operation hands to the list. -/
def GroupedList.handed (g : GroupedList Group Value) : ListAction Group Value → List Iterator
  | .pushFront key _ =>
      [if key.first = .frontUngroupedSlots then g.getListIterator 0 else g.lowerBound key]
  | .pushBack key _ =>
      [if key.first = .backUngroupedSlots then g.getListIterator g.groupMap.length
        else g.upperBound key]
  | .eraseKey key => [g.lowerBound key, g.upperBound key]
  | .erase _ it => [it]
  | .clear => []

theorem GroupedList.act_name {g g' : GroupedList Group Value} {a : ListAction Group Value}
    (acted : g.act a = some g') : g'.list.name = g.list.name := by
  cases a with
  | pushFront key value =>
      cases acted
      rfl
  | pushBack key value =>
      cases acted
      rfl
  | eraseKey key =>
      cases acted
      unfold eraseKey
      dsimp only
      split
      · exact LinkedList.eraseRange_name _ _ _ _
      · rfl
  | erase key it =>
      obtain ⟨⟨list, next⟩, erased, rfl⟩ := Option.map_eq_some_iff.mp acted
      rw [(erase_some erased).1]
      rfl
  | clear =>
      cases acted
      rfl

theorem GroupedList.act_fresh {g g' c c' : GroupedList Group Value} {a : ListAction Group Value}
    {name : Nat} (acted : g.act a = some g') (acted' : c.act (a.inList name) = some c')
    (same : c.list.fresh = g.list.fresh) : c'.list.fresh = g'.list.fresh := by
  cases a with
  | pushFront key value =>
      cases acted
      cases acted'
      exact congrArg (· + 1) same
  | pushBack key value =>
      cases acted
      cases acted'
      exact congrArg (· + 1) same
  | eraseKey key =>
      have kept : ∀ h : GroupedList Group Value, (h.eraseKey key).list.fresh = h.list.fresh := by
        intro h
        unfold eraseKey
        dsimp only
        split
        · exact LinkedList.eraseRange_fresh _ _ _ _
        · rfl
      cases acted
      cases acted'
      rw [kept, kept, same]
  | erase key it =>
      obtain ⟨⟨list, next⟩, erased, rfl⟩ := Option.map_eq_some_iff.mp acted
      obtain ⟨⟨list', next'⟩, erased', rfl⟩ := Option.map_eq_some_iff.mp acted'
      rw [(erase_some erased).1, (erase_some erased').1]
      exact same
  | clear =>
      cases acted
      cases acted'
      exact same

namespace Listing

variable {compare : Group → Group → Bool} {s s' c : Listing Group Value}
variable {a : ListAction Group Value} {name : Nat}

/-- Two lists with the same elements. -/
structure Twins (compare : Group → Group → Bool) (name : Nat) (s c : Listing Group Value) :
    Prop where
  original : s.Represented compare
  copied : c.Represented compare
  elements : c.elements = s.elements
  fresh : c.list.list.fresh = s.list.list.fresh
  named : c.list.list.name = name

theorem Twins.given (twins : Twins compare name s c) (given : s.Given a) :
    c.Given (a.inList name) := by
  intro key it same
  cases a with
  | erase key' it' =>
      cases same
      obtain ⟨e, member, keyed, rfl⟩ := given key it' rfl
      refine ⟨e, ?_, keyed, ?_⟩
      · rw [twins.elements]
        exact member
      · rw [twins.named]
  | _ => cases same

theorem Twins.step (twins : Twins compare name s c) (order : StrictWeak compare)
    (given : s.Given a) (stepped : s.step compare a = some s') :
    ∃ c', c.step compare (a.inList name) = some c' ∧ Twins compare name s' c' := by
  obtain ⟨c', stepped', copied⟩ := twins.copied.step order (twins.given given)
  obtain ⟨s'', again, original⟩ := twins.original.step order given
  cases stepped.symm.trans again
  refine ⟨c', stepped', ?_⟩
  obtain ⟨list, acted, rfl⟩ := Option.map_eq_some_iff.mp stepped
  obtain ⟨list', acted', rfl⟩ := Option.map_eq_some_iff.mp stepped'
  refine ⟨original, copied, ?_, ?_, ?_⟩
  · dsimp only
    rw [twins.elements, twins.fresh]
    cases a <;> rfl
  · exact GroupedList.act_fresh acted acted' twins.fresh
  · exact (GroupedList.act_name acted').trans twins.named

/-- The second list holds the same elements and answers with the same positions, in a
list of its own. -/
structure Alike (compare : Group → Group → Bool) (name : Nat) (s c : Listing Group Value) :
    Prop where
  kept : Kept compare c
  elements : c.elements = s.elements
  named : c.list.list.name = name
  lower : ∀ key, c.list.lowerBound key = { s.list.lowerBound key with owner := name }
  upper : ∀ key, c.list.upperBound key = { s.list.upperBound key with owner := name }
  erased : ∀ before e after, s.elements = before ++ e :: after → ∃ list list',
    s.list.erase e.2.1 (s.position (e :: after)) = some (list, s.position after) ∧
      c.list.erase e.2.1 (c.position (e :: after)) =
        some (list', { s.position after with owner := name })
  handed : ∀ a, s.Given a → ∀ it ∈ c.list.handed (a.inList name), it.owner = name

theorem Kept.owner_of_entry (kept : Kept compare c) (mapIt : Nat) :
    (c.list.getListIterator mapIt).owner = c.list.list.name := by
  unfold GroupedList.getListIterator
  cases found : c.list.groupMap[mapIt]? with
  | none => rfl
  | some entry =>
      obtain ⟨before, e, after, _, here, _⟩ := kept.heads entry (List.mem_of_getElem? found)
      dsimp only
      rw [here]
      rfl

theorem Twins.alike (twins : Twins compare name s c) (order : StrictWeak compare) :
    Alike compare name s c := by
  have kept := twins.copied.kept order
  have owner : ∀ mapIt, (c.list.getListIterator mapIt).owner = name :=
    fun mapIt => (kept.owner_of_entry mapIt).trans twins.named
  have place : ∀ suffix, c.position suffix = { s.position suffix with owner := name } := by
    intro suffix
    rw [position, twins.named]
    rfl
  refine ⟨kept, twins.elements, twins.named, ?_, ?_, ?_, ?_⟩
  · intro key
    have here := (twins.original.bounded order key).lower
    have there := (twins.copied.bounded order key).lower
    rw [here, there, place, inClass, above, twins.elements]
    rfl
  · intro key
    have here := (twins.original.bounded order key).upper
    have there := (twins.copied.bounded order key).upper
    rw [here, there, place, above, twins.elements]
    rfl
  · intro before e after split
    obtain ⟨list, erased, _⟩ := twins.original.erase order split
    obtain ⟨list', erased', _⟩ := twins.copied.erase order (twins.elements.trans split)
    refine ⟨list, list', erased, ?_⟩
    rw [← place]
    exact erased'
  · intro a given it member
    cases a with
    | pushFront key value =>
        cases List.mem_singleton.mp member
        split
        · exact owner 0
        · exact owner _
    | pushBack key value =>
        cases List.mem_singleton.mp member
        split
        · exact owner _
        · exact owner _
    | eraseKey key =>
        rcases List.mem_cons.mp member with rfl | other
        · exact owner _
        · cases List.mem_singleton.mp other
          exact owner _
    | erase key it' =>
        cases List.mem_singleton.mp member
        rfl
    | clear => cases member

theorem fixUpMap_keys (other this : LinkedList Value) (entries : List (GroupKey Group × Iterator))
    (thisIt : Iterator) :
    (GroupedList.fixUpMap other this entries thisIt).map Prod.fst = entries.map Prod.fst := by
  induction entries generalizing thisIt with
  | nil => rfl
  | cons entry rest ih => simp only [GroupedList.fixUpMap, List.map_cons, ih]

/-- A copy has the same elements under the same keys and a map into its own list, and
whatever is done to both from then on gives the same answers. -/
theorem copy_runs (order : StrictWeak compare) (represented : s.Represented compare)
    (name : Nat) {actions : List (ListAction Group Value)}
    (given : Runs.Guarded (Listing.step compare) Given s actions) :
    (s.copy name).list.groupMap.map Prod.fst = s.list.groupMap.map Prod.fst ∧
      Alike compare name s (s.copy name) ∧
      ∃ s' c', Runs.run (Listing.step compare) s actions = some s' ∧
        Runs.run (Listing.step compare) (s.copy name)
          (actions.map (ListAction.inList name)) = some c' ∧
        Alike compare name s' c' := by
  have twins : Twins compare name s (s.copy name) :=
    ⟨represented, represented.copy name, rfl, rfl, rfl⟩
  have answers : ∀ (s c : Listing Group Value) (a : ListAction Group Value)
      (next : Listing Group Value), Twins compare name s c → s.Given a →
      s.step compare a = some next →
        ∃ next', c.step compare (a.inList name) = some next' ∧ Twins compare name next next' :=
    fun _ _ _ _ twins given stepped => twins.step order given stepped
  obtain ⟨s', ran, _⟩ := represented.run order given
  obtain ⟨c', ran', ends⟩ := Runs.run_lockstep answers twins given ran
  exact ⟨fixUpMap_keys _ _ _ _, twins.alike order, s', c', ran, ran', ends.alike order⟩

end Listing

/-! ### Runs -/

/-- Three groups and an ungrouped slot; then the head of a group is erased. -/
def pushThenErase : List (ListAction Nat Nat) :=
  [.pushBack (.groupedSlots 2) 20, .pushBack (.groupedSlots 1) 10, .pushFront (.groupedSlots 2) 21,
    .pushFront .frontUngroupedSlots 5, .erase (.groupedSlots 2) { owner := 0, node := some 2 },
    .pushBack .backUngroupedSlots 30, .eraseKey (.groupedSlots 1)]

/-- Evaluates `Listing.Given`. -/
def Listing.given (s : Listing Nat Nat) : ListAction Nat Nat → Bool
  | .erase key it =>
      s.elements.any fun e =>
        decide (e.2.1 = key) && decide (it = { owner := s.list.list.name, node := some e.1 })
  | _ => true

theorem Listing.Given.of_check {s : Listing Nat Nat} {a : ListAction Nat Nat}
    (checked : s.given a = true) : s.Given a := by
  intro key it same
  subst same
  obtain ⟨e, member, both⟩ := List.any_eq_true.mp checked
  simp only [Bool.and_eq_true, decide_eq_true_eq] at both
  exact ⟨e, member, both.1, both.2⟩

theorem pushThenErase_given :
    Runs.Guarded (Listing.step fun a b : Nat => decide (a < b)) Listing.Given
      (Listing.construct 0 (fun a b => decide (a < b)) fun a b => decide (a < b))
      pushThenErase :=
  .of_checked (fun _ _ => Listing.Given.of_check) (by decide +kernel)

theorem pushThenErase_served :
    ∃ s : Listing Nat Nat,
      Runs.run (Listing.step fun a b => decide (a < b))
        (Listing.construct 0 (fun a b => decide (a < b)) fun a b => decide (a < b))
        pushThenErase = some s ∧
      s.elements.map (fun e => e.2.2) = [5, 20, 30] ∧
      Listing.Kept (fun a b => decide (a < b)) s ∧ Listing.Served (fun a b => decide (a < b)) s := by
  obtain ⟨s, ran, kept, served⟩ :=
    Listing.grouped_list_runs natLess_strictWeak pushThenErase_given
  refine ⟨s, ran, ?_, kept, served⟩
  have ends : (Runs.run (Listing.step fun a b => decide (a < b))
      (Listing.construct 0 (fun a b => decide (a < b)) fun a b => decide (a < b))
      pushThenErase).map (fun s => s.elements.map fun e => e.2.2) = some [5, 20, 30] := by
    decide +kernel
  rw [ran] at ends
  exact Option.some.inj ends

/-- The list with two groups and an ungrouped slot is copied, then both are used. -/
theorem pushThenErase_copied :
    ∃ s : Listing Nat Nat,
      Runs.run (Listing.step fun a b => decide (a < b))
        (Listing.construct 0 (fun a b => decide (a < b)) fun a b => decide (a < b))
        pushThenErase = some s ∧
      Listing.Alike (fun a b => decide (a < b)) 1 s (s.copy 1) ∧
      ∃ s' c', Runs.run (Listing.step fun a b => decide (a < b)) s
          [.pushFront (.groupedSlots 2) 22, .eraseKey .frontUngroupedSlots] = some s' ∧
        Runs.run (Listing.step fun a b => decide (a < b)) (s.copy 1)
          [.pushFront (.groupedSlots 2) 22, .eraseKey .frontUngroupedSlots] = some c' ∧
        Listing.Alike (fun a b => decide (a < b)) 1 s' c' := by
  have start : (Listing.construct 0 (fun a b => decide (a < b)) fun a b => decide (a < b) :
      Listing Nat Nat).Represented fun a b => decide (a < b) :=
    Listing.construct_represented 0 _
  obtain ⟨s, ran, represented⟩ := start.run natLess_strictWeak pushThenErase_given
  have given : Runs.Guarded (Listing.step fun a b : Nat => decide (a < b)) Listing.Given s
      [.pushFront (.groupedSlots 2) 22, .eraseKey .frontUngroupedSlots] := by
    refine .of_forall fun a member s key it same => ?_
    subst same
    simp at member
  obtain ⟨_, alike, s', c', ran', copied, ends⟩ :=
    Listing.copy_runs natLess_strictWeak represented 1 given
  exact ⟨s, ran, alike, s', c', ran', copied, ends⟩

end Signals2
