/-
Shared connection blocks.  The objects of a program are a table that says for each
block what it refers to and whether it is blocking.  Each operation changes the table
as its name says, and a connection that is there is blocked exactly while the table
has a block on it that is blocking.
-/

import Signals2.Library.Runs
import Signals2.Blockers

namespace Signals2

/-! ### Operations of one signal -/

namespace World

variable {σ : SignalTemplate} {w w' : World σ}

theorem step_constructBlock {b : Option BodyId} (stepped : w.step (.constructBlock b) = some w') :
    w' = { w with blocks := w.blocks ++ [{ weakConnectionBody := b, blocker := none }] } := by
  unfold step at stepped
  split at stepped <;> cases stepped
  rfl

theorem step_copyBlock {k : BlockId} (stepped : w.step (.copyBlock k) = some w') :
    ∃ members, w.blocks[k]? = some members ∧
      w' = { w with blocks := w.blocks ++ [members] } := by
  unfold step at stepped
  split at stepped
  · cases stepped
  · obtain ⟨members, found, rfl⟩ := Option.map_eq_some_iff.mp stepped
    exact ⟨members, found, rfl⟩

theorem step_unblock {k : BlockId} (stepped : w.step (.unblock k) = some w') :
    ∃ members, w.blocks[k]? = some members ∧
      w' = { w with blocks := w.blocks.set k { members with blocker := none } } := by
  unfold step at stepped
  split at stepped
  · cases stepped
  · obtain ⟨members, found, rfl⟩ := Option.map_eq_some_iff.mp stepped
    exact ⟨members, found, rfl⟩

theorem step_block {k : BlockId} (stepped : w.step (.block k) = some w') :
    ∃ members, w.blocks[k]? = some members ∧ BlockEffect w k members w' := by
  unfold step at stepped
  split at stepped
  · cases stepped
  · exact block_cases stepped

theorem BlockEffect.blocks {k : BlockId} {members : SharedConnectionBlock}
    (effect : BlockEffect w k members w') (found : w.blocks[k]? = some members) :
    ∃ x, w'.blocks = w.blocks.set k { members with blocker := some x } := by
  cases effect with
  | already x holds =>
      refine ⟨x, ?_⟩
      obtain ⟨inside, same⟩ := List.getElem?_eq_some_iff.mp found
      rw [← holds, ← same]
      exact (List.set_getElem_self inside).symm
  | gone idle dead => exact ⟨_, rfl⟩
  | shared b x idle target alive current held => exact ⟨x, rfl⟩
  | fresh b idle target alive expired => exact ⟨_, rfl⟩

theorem BlockEffect.nextBody {k : BlockId} {members : SharedConnectionBlock}
    (effect : BlockEffect w k members w') : w'.nextBody = w.nextBody := by
  cases effect <;> rfl

/-- Blocks have come and gone, and bodies have got blockers. -/
structure Reblocked (w w' : World σ) : Prop where
  nextBody : w'.nextBody = w.nextBody
  alive : ∀ b, w'.bodyAlive b = w.bodyAlive b
  blocking : w.Blocking → w'.Blocking

theorem Reblocked.refl (w : World σ) : Reblocked w w := ⟨rfl, fun _ => rfl, id⟩

theorem Reblocked.trans {first second third : World σ} (left : Reblocked first second)
    (right : Reblocked second third) : Reblocked first third where
  nextBody := right.nextBody.trans left.nextBody
  alive b := (right.alive b).trans (left.alive b)
  blocking holds := right.blocking (left.blocking holds)

theorem reblocked_replace {blocks : List SharedConnectionBlock}
    (known : w.Blocking → ∀ members ∈ blocks, members ∈ w.blocks ∨ members.blocker = none ∧
      ∀ b, members.weakConnectionBody = some b → b < w.nextBody) :
    Reblocked w { w with blocks := blocks } where
  nextBody := rfl
  alive b := bodyAlive_congr rfl rfl rfl rfl rfl b
  blocking holds := holds.replace (known holds)

theorem reblocked_constructBlock {b : Option BodyId} (known : ∀ c, b = some c → c < w.nextBody)
    (stepped : w.step (.constructBlock b) = some w') : Reblocked w w' := by
  rw [step_constructBlock stepped]
  apply reblocked_replace
  intro _ members member
  rcases List.mem_append.mp member with old | new
  · exact .inl old
  · cases List.mem_singleton.mp new
    exact .inr ⟨rfl, known⟩

theorem reblocked_copyBlock {k : BlockId} (stepped : w.step (.copyBlock k) = some w') :
    Reblocked w w' := by
  obtain ⟨original, found, rfl⟩ := step_copyBlock stepped
  apply reblocked_replace
  intro _ members member
  rcases List.mem_append.mp member with old | new
  · exact .inl old
  · cases List.mem_singleton.mp new
    exact .inl (List.mem_of_getElem? found)

theorem reblocked_unblock {k : BlockId} (stepped : w.step (.unblock k) = some w') :
    Reblocked w w' := by
  obtain ⟨original, found, rfl⟩ := step_unblock stepped
  apply reblocked_replace
  intro holds members member
  rcases List.mem_or_eq_of_mem_set member with old | rfl
  · exact .inl old
  · exact .inr ⟨rfl, holds.below original (List.mem_of_getElem? found)⟩

theorem reblocked_block {k : BlockId} (stepped : w.step (.block k) = some w') :
    Reblocked w w' := by
  obtain ⟨members, found, effect⟩ := step_block stepped
  exact ⟨effect.nextBody, effect.alive, fun holds => holds.block found effect⟩

theorem reblocked_reset (k : BlockId) : Reblocked w (w.resetBlock k) := by
  apply reblocked_replace
  intro _ members member
  rcases List.mem_or_eq_of_mem_set member with old | rfl
  · exact .inl old
  · exact .inr ⟨rfl, fun b impossible => by cases impossible⟩

end World

namespace Program

variable {Name : Type} {σ : Name → SignalTemplate} {p p' : Program σ}

/-! ### The table of the blocks -/

def membersAt (p : Program σ) (place : Name × BlockId) : Option SharedConnectionBlock :=
  (p.signals place.1).blocks[place.2]?

/-- What the members of a block say, told by the signal that keeps them. -/
def told (name : Name) (members : SharedConnectionBlock) : Option (Name × BodyId) × Bool :=
  (members.weakConnectionBody.map (Prod.mk name), members.blocker.isSome)

/-- For each block that exists, what it refers to and whether it is blocking. -/
def table (p : Program σ) (this : BlockId) : Option (Option (Name × BodyId) × Bool) :=
  (p.blockAt this).bind fun place => (p.membersAt place).map (told place.1)

/-- Each block has a place of its own, and no other place has a blocker. -/
structure Placed (p : Program σ) : Prop where
  inside : ∀ this place, p.blockAt this = some place → ∃ members, p.membersAt place = some members
  distinct : ∀ this other place, p.blockAt this = some place → p.blockAt other = some place →
    this = other
  owned : ∀ place members, p.membersAt place = some members → members.blocker ≠ none →
    ∃ this, p.blockAt this = some place

/-- A block, new or not, gets new members in a new place, and leaves none behind. -/
structure Acquired (p : Program σ) (this : BlockId) (place : Name × BlockId)
    (members : SharedConnectionBlock) (p' : Program σ) : Prop where
  fresh : p.membersAt place = none
  here : p'.blockAt this = some place
  others : ∀ other, other ≠ this → p'.blockAt other = p.blockAt other
  new : p'.membersAt place = some members
  old : ∀ spot, spot ≠ place → p.blockAt this ≠ some spot → p'.membersAt spot = p.membersAt spot
  left : ∀ spot left, spot ≠ place → p.blockAt this = some spot →
    p'.membersAt spot = some left → left.blocker = none

/-- A block that exists gets new members where it is. -/
structure Modified (p : Program σ) (this : BlockId) (members : SharedConnectionBlock)
    (p' : Program σ) : Prop where
  same : ∀ other, p'.blockAt other = p.blockAt other
  here : ∃ place, p.blockAt this = some place ∧ p'.membersAt place = some members
  old : ∀ spot, p.blockAt this ≠ some spot → p'.membersAt spot = p.membersAt spot

/-- A new place holds no block yet. -/
theorem Acquired.vacant {this : BlockId} {place : Name × BlockId} {members : SharedConnectionBlock}
    (acquired : Acquired p this place members p') (placed : p.Placed) (other : BlockId) :
    p.blockAt other ≠ some place := by
  intro there
  obtain ⟨old, found⟩ := placed.inside other place there
  rw [acquired.fresh] at found
  cases found

/-- The members of every other block stay as they are. -/
theorem Acquired.others_members {this other : BlockId} {place spot : Name × BlockId}
    {members : SharedConnectionBlock} (acquired : Acquired p this place members p')
    (placed : p.Placed) (different : other ≠ this) (at_ : p.blockAt other = some spot) :
    p'.membersAt spot = p.membersAt spot := by
  have elsewhere : spot ≠ place := by
    intro equal
    subst equal
    exact acquired.vacant placed other at_
  have foreign : p.blockAt this ≠ some spot :=
    fun mine => different (placed.distinct other this spot at_ mine)
  exact acquired.old spot elsewhere foreign

theorem Acquired.placed {this : BlockId} {place : Name × BlockId} {members : SharedConnectionBlock}
    (acquired : Acquired p this place members p') (placed : p.Placed) : p'.Placed where
  inside other spot at_ := by
    by_cases same : other = this
    · subst same
      cases acquired.here.symm.trans at_
      exact ⟨members, acquired.new⟩
    · rw [acquired.others other same] at at_
      obtain ⟨old, found⟩ := placed.inside other spot at_
      exact ⟨old, (acquired.others_members placed same at_).trans found⟩
  distinct first second spot at_ at' := by
    have fresh : ∀ other, other ≠ this → p'.blockAt other ≠ some place := by
      intro other different
      rw [acquired.others other different]
      exact acquired.vacant placed other
    by_cases same : first = this
    · subst same
      cases acquired.here.symm.trans at_
      by_contra different
      exact fresh second (Ne.symm different) at'
    · by_cases same' : second = this
      · subst same'
        cases acquired.here.symm.trans at'
        exact absurd at_ (fresh first same)
      · rw [acquired.others first same] at at_
        rw [acquired.others second same'] at at'
        exact placed.distinct first second spot at_ at'
  owned spot found members' holds := by
    by_cases new : spot = place
    · subst new
      exact ⟨this, acquired.here⟩
    · by_cases mine : p.blockAt this = some spot
      · exact absurd (acquired.left spot found new mine members') holds
      · rw [acquired.old spot new mine] at members'
        obtain ⟨other, at_⟩ := placed.owned spot found members' holds
        refine ⟨other, ?_⟩
        rw [acquired.others other (fun same => mine (same ▸ at_))]
        exact at_

theorem Acquired.table {this : BlockId} {place : Name × BlockId} {members : SharedConnectionBlock}
    (acquired : Acquired p this place members p') (placed : p.Placed) :
    p'.table = Function.update p.table this (some (told place.1 members)) := by
  funext other
  by_cases same : other = this
  · subst same
    simp [Program.table, acquired.here, acquired.new]
  · rw [Function.update_of_ne same, Program.table, Program.table, acquired.others other same]
    cases at_ : p.blockAt other with
    | none => rfl
    | some spot => simp only [Option.bind_some, acquired.others_members placed same at_]

theorem Modified.placed {this : BlockId} {members : SharedConnectionBlock}
    (modified : Modified p this members p') (placed : p.Placed) : p'.Placed where
  inside other spot at_ := by
    rw [modified.same] at at_
    by_cases mine : p.blockAt this = some spot
    · obtain ⟨place, at', new⟩ := modified.here
      cases mine.symm.trans at'
      exact ⟨members, new⟩
    · obtain ⟨old, found⟩ := placed.inside other spot at_
      exact ⟨old, (modified.old spot mine).trans found⟩
  distinct first second spot at_ at' := by
    rw [modified.same] at at_ at'
    exact placed.distinct first second spot at_ at'
  owned spot found members' holds := by
    by_cases mine : p.blockAt this = some spot
    · exact ⟨this, (modified.same this).trans mine⟩
    · rw [modified.old spot mine] at members'
      obtain ⟨other, at_⟩ := placed.owned spot found members' holds
      exact ⟨other, (modified.same other).trans at_⟩

theorem Modified.table {this : BlockId} {members : SharedConnectionBlock}
    (modified : Modified p this members p') (placed : p.Placed) :
    ∃ place, p.blockAt this = some place ∧
      p'.table = Function.update p.table this (some (told place.1 members)) := by
  obtain ⟨place, at_, new⟩ := modified.here
  refine ⟨place, at_, ?_⟩
  funext other
  by_cases same : other = this
  · subst same
    simp [Program.table, modified.same, at_, new]
  · rw [Function.update_of_ne same, Program.table, Program.table, modified.same]
    cases at' : p.blockAt other with
    | none => rfl
    | some spot =>
        have foreign : p.blockAt this ≠ some spot := by
          intro mine
          exact same (placed.distinct other this spot at' mine)
        simp only [Option.bind_some, modified.old spot foreign]

/-- A block is gone and leaves no blocker behind. -/
structure Removed (p : Program σ) (this : BlockId) (p' : Program σ) : Prop where
  gone : p'.blockAt this = none
  others : ∀ other, other ≠ this → p'.blockAt other = p.blockAt other
  old : ∀ spot, p.blockAt this ≠ some spot → p'.membersAt spot = p.membersAt spot
  left : ∀ spot left, p.blockAt this = some spot → p'.membersAt spot = some left →
    left.blocker = none

theorem Removed.placed {this : BlockId} (removed : Removed p this p') (placed : p.Placed) :
    p'.Placed where
  inside other spot at_ := by
    have different : other ≠ this := by
      intro same
      rw [same, removed.gone] at at_
      cases at_
    rw [removed.others other different] at at_
    have foreign : p.blockAt this ≠ some spot := by
      intro mine
      exact different (placed.distinct other this spot at_ mine)
    obtain ⟨old, found⟩ := placed.inside other spot at_
    exact ⟨old, (removed.old spot foreign).trans found⟩
  distinct first second spot at_ at' := by
    have remains : ∀ other, p'.blockAt other = some spot → p.blockAt other = some spot := by
      intro other there
      rw [← there]
      apply Eq.symm
      apply removed.others
      intro same
      rw [same, removed.gone] at there
      cases there
    exact placed.distinct first second spot (remains first at_) (remains second at')
  owned spot found members' holds := by
    by_cases mine : p.blockAt this = some spot
    · exact absurd (removed.left spot found mine members') holds
    · rw [removed.old spot mine] at members'
      obtain ⟨other, at_⟩ := placed.owned spot found members' holds
      refine ⟨other, ?_⟩
      rw [removed.others other (fun same => mine (same ▸ at_))]
      exact at_

theorem Removed.table {this : BlockId} (removed : Removed p this p') (placed : p.Placed) :
    p'.table = Function.update p.table this none := by
  funext other
  by_cases same : other = this
  · subst same
    simp [Program.table, removed.gone]
  · rw [Function.update_of_ne same, Program.table, Program.table, removed.others other same]
    cases at_ : p.blockAt other with
    | none => rfl
    | some spot =>
        have foreign : p.blockAt this ≠ some spot := by
          intro mine
          exact same (placed.distinct other this spot at_ mine)
        simp only [Option.bind_some, removed.old spot foreign]

/-! ### Where the operations put things -/

theorem nextRecord_free (name : Name) : p.membersAt (p.nextRecord name) = none := by
  simp [membersAt, nextRecord]

section

variable [DecidableEq Name]

theorem membersAt_setSignal (name : Name) (w : World (σ name)) (place : Name × BlockId) :
    (p.setSignal name w).membersAt place =
      if place.1 = name then w.blocks[place.2]? else p.membersAt place := by
  obtain ⟨other, j⟩ := place
  by_cases same : other = name
  · subst same
    simp [membersAt]
  · simp [membersAt, setSignal_other same, same]

/-- A record after the last one. -/
theorem membersAt_append {name : Name} {w : World (σ name)} {members : SharedConnectionBlock}
    (blocks : w.blocks = (p.signals name).blocks ++ [members]) (place : Name × BlockId) :
    (p.setSignal name w).membersAt place =
      if place = p.nextRecord name then some members else p.membersAt place := by
  obtain ⟨other, j⟩ := place
  rw [membersAt_setSignal]
  by_cases same : other = name
  · subst same
    rw [if_pos rfl, blocks]
    by_cases last : j = (p.signals other).blocks.length
    · subst last
      simp [nextRecord]
    · have differs : (other, j) ≠ p.nextRecord other := by
        intro equal
        exact last (Prod.mk.inj equal).2
      rw [if_neg differs]
      by_cases inside : j < (p.signals other).blocks.length
      · simp [membersAt, List.getElem?_append_left inside]
      · have beyond : (p.signals other).blocks.length < j :=
          Nat.lt_of_le_of_ne (Nat.le_of_not_lt inside) (Ne.symm last)
        have outside : ((p.signals other).blocks ++ [members]).length ≤ j := by
          rw [List.length_append]
          exact beyond
        rw [membersAt, List.getElem?_eq_none outside,
          List.getElem?_eq_none (Nat.le_of_lt beyond)]
  · have differs : (other, j) ≠ p.nextRecord name := by
      intro equal
      exact same (Prod.mk.inj equal).1
    rw [if_neg same, if_neg differs]

/-- A record that is written over. -/
theorem membersAt_set {name : Name} {w : World (σ name)} {k : BlockId}
    {old members : SharedConnectionBlock} (found : (p.signals name).blocks[k]? = some old)
    (blocks : w.blocks = (p.signals name).blocks.set k members) (place : Name × BlockId) :
    (p.setSignal name w).membersAt place =
      if place = (name, k) then some members else p.membersAt place := by
  obtain ⟨inside, _⟩ := List.getElem?_eq_some_iff.mp found
  obtain ⟨other, j⟩ := place
  rw [membersAt_setSignal]
  by_cases same : other = name
  · subst same
    rw [if_pos rfl, blocks]
    by_cases here : j = k
    · subst here
      simp [List.getElem?_set_self inside]
    · have differs : (other, j) ≠ (other, k) := by
        intro equal
        exact here (Prod.mk.inj equal).2
      rw [if_neg differs, List.getElem?_set_ne (Ne.symm here)]
      rfl
  · have differs : (other, j) ≠ (name, k) := by
      intro equal
      exact same (Prod.mk.inj equal).1
    rw [if_neg same, if_neg differs]

theorem membersAt_reset (place spot : Name × BlockId) :
    (p.reset place).membersAt spot =
      if spot = place then
        (p.membersAt place).map fun _ => { weakConnectionBody := none, blocker := none }
      else p.membersAt spot := by
  unfold reset
  cases found : p.membersAt place with
  | none =>
      rw [membersAt_setSignal]
      have outside : (p.signals place.1).blocks.length ≤ place.2 :=
        List.getElem?_eq_none_iff.mp found
      have same : ((p.signals place.1).resetBlock place.2).blocks = (p.signals place.1).blocks := by
        simp [World.resetBlock, List.set_eq_of_length_le outside]
      rw [same]
      by_cases here : spot = place
      · subst here
        rw [if_pos rfl, if_pos rfl]
        exact found
      · rw [if_neg here]
        split
        · rename_i signal
          rw [← signal]
          rfl
        · rfl
  | some old =>
      have written (spot : Name × BlockId) :=
        membersAt_set (w := (p.signals place.1).resetBlock place.2) found rfl spot
      rw [written]
      rfl

/-! ### What the operations do -/

/-- Blocks aside, every signal and every connection object stays as it is. -/
structure Reblocked (p p' : Program σ) : Prop where
  connections : p'.connections = p.connections
  signals : ∀ name, World.Reblocked (p.signals name) (p'.signals name)

omit [DecidableEq Name] in
theorem Reblocked.trans {first second third : Program σ} (left : Reblocked first second)
    (right : Reblocked second third) : Reblocked first third where
  connections := right.connections.trans left.connections
  signals name := (left.signals name).trans (right.signals name)

theorem reblocked_setSignal {name : Name} {w : World (σ name)}
    (reblocked : World.Reblocked (p.signals name) w) : Reblocked p (p.setSignal name w) where
  connections := rfl
  signals other := by
    by_cases same : other = name
    · subst same
      rw [setSignal_same]
      exact reblocked
    · rw [setSignal_other same]
      exact .refl _

omit [DecidableEq Name] in
theorem reblocked_blocks {blocks : List (Option (Name × BlockId))} (reblocked : Reblocked p p') :
    Reblocked p { p' with blocks := blocks } :=
  ⟨reblocked.connections, reblocked.signals⟩

theorem reblocked_reset (place : Name × BlockId) : Reblocked p (p.reset place) :=
  reblocked_setSignal (World.reblocked_reset place.2)

theorem reset_modified {this : BlockId} {place : Name × BlockId} {members : SharedConnectionBlock}
    (at_ : p.blockAt this = some place) (found : p.membersAt place = some members) :
    Modified p this { weakConnectionBody := none, blocker := none } (p.reset place) where
  same other := rfl
  here := by
    refine ⟨place, at_, ?_⟩
    rw [membersAt_reset, if_pos rfl, found]
    rfl
  old spot foreign := by
    have elsewhere : spot ≠ place := by
      intro same
      subst same
      exact foreign at_
    rw [membersAt_reset, if_neg elsewhere]

omit [DecidableEq Name] in
theorem blockAt_append_new {place : Name × BlockId} {blocks : List (Option (Name × BlockId))}
    (grown : p'.blocks = blocks ++ [some place]) (before : blocks = p.blocks) :
    p'.blockAt p.blocks.length = some place := by
  subst before
  unfold blockAt
  rw [grown]
  simp

omit [DecidableEq Name] in
theorem blockAt_append_old {this : BlockId} {place : Name × BlockId}
    {blocks : List (Option (Name × BlockId))} (grown : p'.blocks = blocks ++ [some place])
    (before : blocks = p.blocks) (different : this ≠ p.blocks.length) :
    p'.blockAt this = p.blockAt this := by
  subst before
  unfold blockAt
  rw [grown]
  by_cases inside : this < p.blocks.length
  · rw [List.getElem?_append_left inside]
  · have beyond : (p.blocks ++ [some place]).length ≤ this := by
      rw [List.length_append]
      exact Nat.lt_of_le_of_ne (Nat.le_of_not_lt inside) (Ne.symm different)
    rw [List.getElem?_eq_none beyond, List.getElem?_eq_none (Nat.le_of_not_lt inside)]

theorem acquired_new {name : Name} {members : SharedConnectionBlock}
    (grown : p'.blocks = p.blocks ++ [some (p.nextRecord name)])
    (members' : ∀ spot, p'.membersAt spot =
      if spot = p.nextRecord name then some members else p.membersAt spot) :
    Acquired p p.blocks.length (p.nextRecord name) members p' := by
  have absent : p.blockAt p.blocks.length = none := by
    simp [blockAt]
  exact {
    fresh := nextRecord_free name
    here := blockAt_append_new grown rfl
    others := fun other different => blockAt_append_old grown rfl different
    new := by rw [members', if_pos rfl]
    old := by
      intro spot elsewhere _
      rw [members', if_neg elsewhere]
    left := by
      intro spot left _ mine
      rw [absent] at mine
      cases mine }

theorem copyConstructBlock_spec {other : BlockId} (done : p.copyConstructBlock other = some p') :
    ∃ place members, p.blockAt other = some place ∧ p.membersAt place = some members ∧
      Acquired p p.blocks.length (p.nextRecord place.1) members p' ∧ Reblocked p p' := by
  unfold copyConstructBlock at done
  split at done
  · cases done
  · rename_i name j at_
    obtain ⟨copied, copying, rfl⟩ := Option.map_eq_some_iff.mp done
    obtain ⟨w, stepped, rfl⟩ := Option.map_eq_some_iff.mp copying
    have reblocked := reblocked_setSignal (World.reblocked_copyBlock stepped)
    obtain ⟨members, found, rfl⟩ := World.step_copyBlock stepped
    refine ⟨(name, j), members, at_, found, ?_, reblocked_blocks reblocked⟩
    apply acquired_new rfl
    intro spot
    exact membersAt_append rfl spot

theorem moveConstructBlock_spec {other : BlockId} (done : p.moveConstructBlock other = some p')
    (placed : p.Placed) :
    ∃ place members middle, p.blockAt other = some place ∧ p.membersAt place = some members ∧
      Acquired p p.blocks.length (p.nextRecord place.1) members middle ∧
      Modified middle other { weakConnectionBody := none, blocker := none } p' ∧
      Reblocked p p' := by
  unfold moveConstructBlock at done
  split at done
  · cases done
  · rename_i place at_
    obtain ⟨middle, copied, rfl⟩ := Option.map_eq_some_iff.mp done
    obtain ⟨place', members, at', found, acquired, reblocked⟩ := copyConstructBlock_spec copied
    cases at_.symm.trans at'
    have old : other ≠ p.blocks.length := by
      intro same
      subst same
      simp [blockAt] at at_
    have kept : middle.blockAt other = some place := (acquired.others other old).trans at_
    obtain ⟨members', found'⟩ := (acquired.placed placed).inside other place kept
    exact ⟨place, members, middle, at_, found, acquired, reset_modified kept found',
      reblocked.trans (reblocked_reset place)⟩

theorem copyAssignBlock_spec {this rhs : BlockId} (done : p.copyAssignBlock this rhs = some p')
    (placed : p.Placed) :
    ∃ place members, p.blockAt rhs = some place ∧ p.membersAt place = some members ∧
      p.blockAt this ≠ none ∧
      Acquired p this (p.nextRecord place.1) members p' ∧ Reblocked p p' := by
  unfold copyAssignBlock at done
  split at done
  · rename_i old name j at_ at'
    obtain ⟨copied, copying, rfl⟩ := Option.map_eq_some_iff.mp done
    obtain ⟨w, stepped, rfl⟩ := Option.map_eq_some_iff.mp copying
    have reblocked := reblocked_setSignal (World.reblocked_copyBlock stepped)
    obtain ⟨members, found, rfl⟩ := World.step_copyBlock stepped
    have inside : this < p.blocks.length := by
      by_contra outside
      simp [blockAt, List.getElem?_eq_none (Nat.le_of_not_lt outside)] at at_
    obtain ⟨oldMembers, oldFound⟩ := placed.inside this old at_
    have new : old ≠ p.nextRecord name := by
      intro same
      rw [same, nextRecord_free] at oldFound
      cases oldFound
    have members' : ∀ spot, ((p.setSignal name { p.signals name with
        blocks := (p.signals name).blocks ++ [members] }).reset old).membersAt spot =
          if spot = old then some { weakConnectionBody := none, blocker := none }
          else if spot = p.nextRecord name then some members else p.membersAt spot := by
      intro spot
      rw [membersAt_reset, membersAt_append rfl, membersAt_append rfl, if_neg new, oldFound]
      rfl
    refine ⟨(name, j), members, at', found, by simp [at_], ?_,
      reblocked_blocks (reblocked.trans (reblocked_reset old))⟩
    exact {
      fresh := nextRecord_free name
      here := by simp [blockAt, List.getElem?_set_self inside]
      others := by
        intro other different
        simp [blockAt, List.getElem?_set_ne (Ne.symm different)]
      new := by
        have placed' := members' (p.nextRecord name)
        rw [if_neg (Ne.symm new), if_pos rfl] at placed'
        exact placed'
      old := by
        intro spot elsewhere foreign
        have notOld : spot ≠ old := by
          intro same
          subst same
          exact foreign at_
        have kept := members' spot
        rw [if_neg notOld, if_neg elsewhere] at kept
        exact kept
      left := by
        intro spot left elsewhere mine shown
        cases at_.symm.trans mine
        have emptied := members' old
        rw [if_pos rfl] at emptied
        cases emptied.symm.trans shown
        rfl }
  · cases done

theorem moveAssignBlock_spec {this rhs : BlockId} (done : p.moveAssignBlock this rhs = some p')
    (placed : p.Placed) :
    ∃ place members, p.blockAt rhs = some place ∧ p.membersAt place = some members ∧
      (rhs = this ∧ p' = p ∨
        rhs ≠ this ∧ p.blockAt this ≠ none ∧ ∃ middle,
          Acquired p this (p.nextRecord place.1) members middle ∧
          Modified middle rhs { weakConnectionBody := none, blocker := none } p' ∧
          Reblocked p p') := by
  unfold moveAssignBlock at done
  split at done
  · cases done
  · rename_i place at_
    obtain ⟨members, found⟩ := placed.inside rhs place at_
    refine ⟨place, members, at_, found, ?_⟩
    split at done
    · rename_i same
      cases done
      exact .inl ⟨same, rfl⟩
    · rename_i different
      right
      obtain ⟨middle, copied, rfl⟩ := Option.map_eq_some_iff.mp done
      obtain ⟨place', members', at', found', exists_, acquired, reblocked⟩ :=
        copyAssignBlock_spec copied placed
      cases at_.symm.trans at'
      cases found.symm.trans found'
      have kept : middle.blockAt rhs = some place := (acquired.others rhs different).trans at_
      obtain ⟨left, there⟩ := (acquired.placed placed).inside rhs place kept
      exact ⟨different, exists_, middle, acquired, reset_modified kept there,
        reblocked.trans (reblocked_reset place)⟩

theorem destroyBlock_spec {this : BlockId} (done : p.destroyBlock this = some p') :
    p.blockAt this ≠ none ∧ Removed p this p' ∧ Reblocked p p' := by
  unfold destroyBlock at done
  split at done
  · cases done
  · rename_i place at_
    cases done
    refine ⟨by simp [at_], ?_, reblocked_blocks (reblocked_reset place)⟩
    exact {
      gone := by
        simp only [blockAt]
        by_cases inside : this < p.blocks.length
        · simp [List.getElem?_set_self inside]
        · rw [List.getElem?_eq_none]
          · rfl
          · simpa using inside
      others := by
        intro other different
        simp [blockAt, List.getElem?_set_ne (Ne.symm different)]
      old := by
        intro spot foreign
        have elsewhere : spot ≠ place := by
          intro same
          subst same
          exact foreign at_
        have kept := p.membersAt_reset place spot
        rw [if_neg elsewhere] at kept
        exact kept
      left := by
        intro spot left mine shown
        cases at_.symm.trans mine
        have emptied := p.membersAt_reset place place
        rw [if_pos rfl] at emptied
        have shown' : (p.membersAt place).map
            (fun _ => { weakConnectionBody := none, blocker := none }) = some left :=
          emptied.symm.trans shown
        obtain ⟨_, _, rfl⟩ := Option.map_eq_some_iff.mp shown'
        rfl }

theorem modified_set {this : BlockId} {name : Name} {k : BlockId} {w : World (σ name)}
    {old members : SharedConnectionBlock} (at_ : p.blockAt this = some (name, k))
    (found : (p.signals name).blocks[k]? = some old)
    (blocks : w.blocks = (p.signals name).blocks.set k members) :
    Modified p this members (p.setSignal name w) where
  same other := rfl
  here := by
    refine ⟨(name, k), at_, ?_⟩
    rw [membersAt_set found blocks, if_pos rfl]
  old spot foreign := by
    have elsewhere : spot ≠ (name, k) := by
      intro same
      subst same
      exact foreign at_
    rw [membersAt_set found blocks, if_neg elsewhere]

theorem block_spec {this : BlockId} (done : p.block this = some p') :
    ∃ place members x, p.blockAt this = some place ∧ p.membersAt place = some members ∧
      Modified p this { members with blocker := some x } p' ∧ Reblocked p p' := by
  unfold block at done
  split at done
  · cases done
  · rename_i name k at_
    obtain ⟨w, stepped, rfl⟩ := Option.map_eq_some_iff.mp done
    have reblocked := reblocked_setSignal (World.reblocked_block stepped)
    obtain ⟨members, found, effect⟩ := World.step_block stepped
    obtain ⟨x, blocks⟩ := effect.blocks found
    exact ⟨(name, k), members, x, at_, found, modified_set at_ found blocks, reblocked⟩

theorem unblock_spec {this : BlockId} (done : p.unblock this = some p') :
    ∃ place members, p.blockAt this = some place ∧ p.membersAt place = some members ∧
      Modified p this { members with blocker := none } p' ∧ Reblocked p p' := by
  unfold unblock at done
  split at done
  · cases done
  · rename_i name k at_
    obtain ⟨w, stepped, rfl⟩ := Option.map_eq_some_iff.mp done
    have reblocked := reblocked_setSignal (World.reblocked_unblock stepped)
    obtain ⟨members, found, rfl⟩ := World.step_unblock stepped
    exact ⟨(name, k), members, at_, found, modified_set at_ found rfl, reblocked⟩

theorem constructBlock_spec {home : Name} {conn : ConnectionId} {initiallyBlocked : Bool}
    (done : p.constructBlock home conn initiallyBlocked = some p')
    (known : ∀ body, p.reference conn = some body → body.2 < (p.signals body.1).nextBody) :
    ∃ place members middle, p.object conn ≠ none ∧
      told place.1 members = (p.reference conn, false) ∧
      Acquired p p.blocks.length place members middle ∧
      (initiallyBlocked = false ∧ p' = middle ∨ initiallyBlocked = true ∧
        ∃ x, Modified middle p.blocks.length { members with blocker := some x } p') ∧
      Reblocked p p' := by
  unfold constructBlock at done
  split at done
  · cases done
  · rename_i connection present
    have refers := reference_of_object present
    rw [refers]
    dsimp only at done
    obtain ⟨constructed, making, done⟩ := Option.bind_eq_some_iff.mp done
    obtain ⟨w, stepped, rfl⟩ := Option.map_eq_some_iff.mp making
    generalize nameEq : (connection.weakConnectionBody.map Prod.fst).getD home = name at *
    have below : ∀ c, connection.weakConnectionBody.map Prod.snd = some c →
        c < (p.signals name).nextBody := by
      intro c same
      obtain ⟨body, target, rfl⟩ := Option.map_eq_some_iff.mp same
      rw [target] at nameEq
      subst nameEq
      exact known body (refers.trans target)
    have reblocked := reblocked_setSignal (World.reblocked_constructBlock below stepped)
    have made := World.step_constructBlock stepped
    subst made
    have acquired : Acquired p p.blocks.length (p.nextRecord name)
        { weakConnectionBody := connection.weakConnectionBody.map Prod.snd, blocker := none }
        { p.setSignal name { p.signals name with
            blocks := (p.signals name).blocks ++
              [{ weakConnectionBody := connection.weakConnectionBody.map Prod.snd
                 blocker := none }] } with
          blocks := p.blocks ++ [some (p.nextRecord name)] } := by
      apply acquired_new rfl
      intro spot
      exact membersAt_append rfl spot
    refine ⟨p.nextRecord name, _, _, by simp [present], ?_, acquired, ?_, ?_⟩
    · cases target : connection.weakConnectionBody with
      | none => rfl
      | some body =>
          rw [target] at nameEq
          subst nameEq
          rfl
    · cases initiallyBlocked with
      | false =>
          cases done
          exact .inl ⟨rfl, rfl⟩
      | true =>
          right
          obtain ⟨w', stepped', rfl⟩ := Option.map_eq_some_iff.mp done
          obtain ⟨members, found, effect⟩ := World.step_block stepped'
          obtain ⟨x, blocks⟩ := effect.blocks found
          have new := acquired.new
          cases found.symm.trans new
          exact ⟨rfl, x, modified_set acquired.here found blocks⟩
    · cases initiallyBlocked with
      | false =>
          cases done
          exact reblocked_blocks reblocked
      | true =>
          obtain ⟨w', stepped', rfl⟩ := Option.map_eq_some_iff.mp done
          exact (reblocked_blocks reblocked).trans
            (reblocked_setSignal (World.reblocked_block stepped'))

/-! ### What every run keeps -/

structure Linked (p : Program σ) : Prop where
  blocking : ∀ name, (p.signals name).Blocking
  known : ∀ body, p.Refers body → body.2 < (p.signals body.1).nextBody
  placed : p.Placed

/-- The steps of signals and of connection objects leave the blocks alone. -/
structure Unblocked (p p' : Program σ) : Prop where
  blocks : p'.blocks = p.blocks
  signals : ∀ name, p'.signals name = p.signals name ∨
    ∃ a : Action (σ name), a.ofBlock = false ∧ (p.signals name).step a = some (p'.signals name)
  refers : ∀ body, p'.Refers body → p.Refers body ∨ body.2 < (p.signals body.1).nextBody

omit [DecidableEq Name] in
theorem Unblocked.of_objects (blocks : p'.blocks = p.blocks) (signals : p'.signals = p.signals)
    (refers : ∀ body, p'.Refers body → p.Refers body) : Unblocked p p' where
  blocks := blocks
  signals name := .inl (congrFun signals name)
  refers body target := .inl (refers body target)

theorem disconnect_unblocked {this : ConnectionId} {middle : Program σ}
    (done : p.disconnect this = some middle) (blocks : p'.blocks = middle.blocks)
    (signals : p'.signals = middle.signals) (refers : ∀ body, p'.Refers body → middle.Refers body) :
    Unblocked p p' := by
  unfold disconnect at done
  split at done
  · cases done
    exact .of_objects blocks signals refers
  · rename_i name b _
    obtain ⟨w, stepped, rfl⟩ := Option.map_eq_some_iff.mp done
    refine ⟨blocks, fun other => ?_, fun body target => .inl ?_⟩
    · rw [signals]
      by_cases same : other = name
      · subst same
        rw [setSignal_same]
        exact .inr ⟨.disconnect b, rfl, stepped⟩
      · exact .inl (setSignal_other same w)
    · exact refers_congr rfl (refers body target)

def ofBlock : ProgramAction σ → Bool
  | .constructBlock _ _ _ => true
  | .copyConstructBlock _ => true
  | .moveConstructBlock _ => true
  | .copyAssignBlock _ _ => true
  | .moveAssignBlock _ _ => true
  | .block _ => true
  | .unblock _ => true
  | .destroyBlock _ => true
  | _ => false

variable {a : ProgramAction σ}

theorem step_unblocked (other : ofBlock a = false) (stepped : p.step a = some p') :
    Unblocked p p' := by
  cases a with
  | signal name act =>
      simp only [step] at stepped
      split at stepped
      · cases stepped
      · rename_i plain
        obtain ⟨w, taken, rfl⟩ := Option.map_eq_some_iff.mp stepped
        refine ⟨rfl, fun this => ?_, fun body target => .inl (refers_congr rfl target)⟩
        by_cases same : this = name
        · subst same
          rw [setSignal_same]
          exact .inr ⟨act, by simpa using plain, taken⟩
        · exact .inl (setSignal_other same w)
  | construct type =>
      cases stepped
      refine .of_objects rfl rfl fun body target => ?_
      exact (refers_newConnection target).elim id fun impossible => by cases impossible
  | refer made =>
      simp only [step] at stepped
      split at stepped
      · rename_i below
        cases stepped
        refine ⟨rfl, fun _ => .inl rfl, fun body target => ?_⟩
        rcases refers_newConnection target with before | new
        · exact .inl before
        · cases new
          exact .inr below
      · cases stepped
  | copyConstruct type source =>
      obtain ⟨conn, present, rfl⟩ := Option.map_eq_some_iff.mp stepped
      refine .of_objects rfl rfl fun body target => ?_
      exact (refers_newConnection target).elim id fun target => ⟨source, target⟩
  | moveConstruct type source =>
      obtain ⟨conn, present, rfl⟩ := Option.map_eq_some_iff.mp stepped
      apply Unblocked.of_objects
      · simp [connectionMoveConstruct, newConnection]
      · simp [connectionMoveConstruct, newConnection]
      · intro body target
        exact refers_moved target
  | copyAssign this rhs =>
      obtain ⟨conn, source, present, present', cases_⟩ := step_copyAssign stepped
      rcases cases_ with ⟨plain, rfl⟩ | ⟨own, disconnected, done, rfl⟩
      · exact .of_objects (by simp) (by simp) fun body => refers_copyAssign
      · exact disconnect_unblocked done (by simp) (by simp) fun body => refers_copyAssign
  | moveAssign this rhs =>
      obtain ⟨conn, source, present, present', cases_⟩ := step_moveAssign stepped
      rcases cases_ with ⟨plain, rfl⟩ | ⟨rfl, rfl⟩ | ⟨own, different, disconnected, done, rfl⟩
      · exact .of_objects (by simp) (by simp) fun body => refers_moveAssign
      · exact .of_objects rfl rfl fun body target => target
      · exact disconnect_unblocked done (by simp) (by simp) fun body => refers_moveAssign
  | baseCopyAssign this rhs =>
      obtain ⟨conn, source, present, present', rfl⟩ := step_baseCopyAssign stepped
      exact .of_objects (by simp) (by simp) fun body => refers_copyAssign
  | baseMoveAssign this rhs =>
      obtain ⟨conn, source, present, present', rfl⟩ := step_baseMoveAssign stepped
      exact .of_objects (by simp) (by simp) fun body => refers_moveAssign
  | swap this source =>
      simp only [step] at stepped
      split at stepped
      · cases stepped
        exact .of_objects (by simp [swap]) (by simp [swap]) fun body => refers_swap
      · cases stepped
  | release this =>
      obtain ⟨conn, present, rfl⟩ := step_release stepped
      apply Unblocked.of_objects
      · simp [release, newConnection]
      · simp [release, newConnection]
      · intro body target
        exact refers_moved target
  | disconnect this =>
      obtain ⟨conn, present, done⟩ := Option.bind_eq_some_iff.mp stepped
      exact disconnect_unblocked done rfl rfl fun body target => target
  | destroy this =>
      rcases step_destroy stepped with ⟨plain, rfl⟩ | ⟨own, disconnected, done, rfl⟩
      · exact .of_objects rfl rfl fun body => refers_remove
      · exact disconnect_unblocked done rfl rfl fun body => refers_remove
  | _ => cases other

omit [DecidableEq Name] in
theorem Unblocked.linked (unblocked : Unblocked p p') (linked : p.Linked) : p'.Linked := by
  have grows : ∀ name, (p.signals name).nextBody ≤ (p'.signals name).nextBody := by
    intro name
    rcases unblocked.signals name with same | ⟨act, _, stepped⟩
    · exact Nat.le_of_eq (by rw [same])
    · exact (World.step_effect stepped).2.nextBody_le
  have members : ∀ place, p'.membersAt place = p.membersAt place := by
    intro place
    unfold membersAt
    rcases unblocked.signals place.1 with same | ⟨act, plain, stepped⟩
    · rw [same]
    · rw [(World.step_blocksKept plain stepped).blocks]
  have places : ∀ this, p'.blockAt this = p.blockAt this := by
    intro this
    rw [blockAt, blockAt, unblocked.blocks]
  exact {
    blocking := by
      intro name
      rcases unblocked.signals name with same | ⟨act, plain, stepped⟩
      · rw [same]
        exact linked.blocking name
      · exact (linked.blocking name).step plain stepped
    known := by
      intro body target
      rcases unblocked.refers body target with before | below
      · exact Nat.lt_of_lt_of_le (linked.known body before) (grows body.1)
      · exact Nat.lt_of_lt_of_le below (grows body.1)
    placed := {
      inside := by
        intro this place at_
        rw [members]
        exact linked.placed.inside this place (places this ▸ at_)
      distinct := by
        intro this other place at_ at'
        exact linked.placed.distinct this other place (places this ▸ at_) (places other ▸ at')
      owned := by
        intro place found members' holds
        rw [members] at members'
        obtain ⟨this, at_⟩ := linked.placed.owned place found members' holds
        exact ⟨this, (places this).trans at_⟩ } }

omit [DecidableEq Name] in
theorem Reblocked.linked (reblocked : Reblocked p p') (linked : p.Linked) (placed : p'.Placed) :
    p'.Linked where
  blocking name := (reblocked.signals name).blocking (linked.blocking name)
  known body target := by
    rw [(reblocked.signals body.1).nextBody]
    exact linked.known body (refers_congr reblocked.connections target)
  placed := placed

/-! ### The table after a step -/

/-- What an operation makes of the table; `connection` and `next` are what the connection
objects refer to and the name that a new block gets. -/
def tableStep (connection : ConnectionId → Option (Name × BodyId)) (next : BlockId)
    (table : BlockId → Option (Option (Name × BodyId) × Bool)) :
    ProgramAction σ → BlockId → Option (Option (Name × BodyId) × Bool)
  | .constructBlock _ conn initiallyBlocked =>
      Function.update table next (some (connection conn, initiallyBlocked))
  | .copyConstructBlock other => Function.update table next (table other)
  | .moveConstructBlock other =>
      Function.update (Function.update table next (table other)) other (some (none, false))
  | .copyAssignBlock this rhs => Function.update table this (table rhs)
  | .moveAssignBlock this rhs =>
      if rhs = this then table
      else Function.update (Function.update table this (table rhs)) rhs (some (none, false))
  | .block this => Function.update table this ((table this).map fun told => (told.1, true))
  | .unblock this => Function.update table this ((table this).map fun told => (told.1, false))
  | .destroyBlock this => Function.update table this none
  | _ => table

omit [DecidableEq Name] in
theorem table_of_members {this : BlockId} {place : Name × BlockId}
    {members : SharedConnectionBlock} (at_ : p.blockAt this = some place)
    (found : p.membersAt place = some members) : p.table this = some (told place.1 members) := by
  simp [table, at_, found]

theorem step_table (linked : p.Linked) (stepped : p.step a = some p') :
    p'.table = tableStep p.reference p.blocks.length p.table a ∧ p'.Linked := by
  have placed := linked.placed
  cases mine : ofBlock a with
  | false =>
      have unblocked := step_unblocked mine stepped
      refine ⟨?_, unblocked.linked linked⟩
      have keeps : tableStep p.reference p.blocks.length p.table a = p.table := by
        cases a <;> first | rfl | cases mine
      rw [keeps]
      funext this
      have place : p'.blockAt this = p.blockAt this := by
        rw [blockAt, blockAt, unblocked.blocks]
      rw [table, table, place]
      cases p.blockAt this with
      | none => rfl
      | some spot =>
          have members : p'.membersAt spot = p.membersAt spot := by
            unfold membersAt
            rcases unblocked.signals spot.1 with same | ⟨act, plain, taken⟩
            · rw [same]
            · rw [(World.step_blocksKept plain taken).blocks]
          simp only [Option.bind_some, members]
  | true =>
      cases a with
      | constructBlock home conn initiallyBlocked =>
          have known : ∀ body, p.reference conn = some body →
              body.2 < (p.signals body.1).nextBody :=
            fun body target => linked.known body ⟨conn, target⟩
          obtain ⟨place, members, middle, _, shown, acquired, ends, reblocked⟩ :=
            constructBlock_spec stepped known
          have made := acquired.table placed
          rcases ends with ⟨plain, rfl⟩ | ⟨blocked, x, modified⟩
          · refine ⟨?_, reblocked.linked linked (acquired.placed placed)⟩
            rw [made, shown, plain]
            rfl
          · have placed' := acquired.placed placed
            refine ⟨?_, reblocked.linked linked (modified.placed placed')⟩
            obtain ⟨place', at_, changed⟩ := modified.table placed'
            cases acquired.here.symm.trans at_
            rw [changed, made, Function.update_idem, blocked]
            have target : told place.1 { members with blocker := some x } =
                (p.reference conn, true) := by
              have first := (Prod.mk.inj shown).1
              rw [told, first]
              rfl
            rw [target]
            rfl
      | copyConstructBlock other =>
          obtain ⟨place, members, at_, found, acquired, reblocked⟩ :=
            copyConstructBlock_spec stepped
          refine ⟨?_, reblocked.linked linked (acquired.placed placed)⟩
          rw [acquired.table placed]
          simp only [tableStep, table_of_members at_ found]
          rfl
      | moveConstructBlock other =>
          obtain ⟨place, members, middle, at_, found, acquired, modified, reblocked⟩ :=
            moveConstructBlock_spec stepped placed
          have placed' := acquired.placed placed
          refine ⟨?_, reblocked.linked linked (modified.placed placed')⟩
          obtain ⟨place', _, changed⟩ := modified.table placed'
          rw [changed, acquired.table placed]
          simp only [tableStep, table_of_members at_ found]
          rfl
      | copyAssignBlock this rhs =>
          obtain ⟨place, members, at_, found, _, acquired, reblocked⟩ :=
            copyAssignBlock_spec stepped placed
          refine ⟨?_, reblocked.linked linked (acquired.placed placed)⟩
          rw [acquired.table placed]
          simp only [tableStep, table_of_members at_ found]
          rfl
      | moveAssignBlock this rhs =>
          obtain ⟨place, members, at_, found, ends⟩ := moveAssignBlock_spec stepped placed
          rcases ends with ⟨same, rfl⟩ | ⟨different, _, middle, acquired, modified, reblocked⟩
          · refine ⟨?_, linked⟩
            rw [tableStep, if_pos same]
          · have placed' := acquired.placed placed
            refine ⟨?_, reblocked.linked linked (modified.placed placed')⟩
            obtain ⟨place', _, changed⟩ := modified.table placed'
            rw [changed, acquired.table placed, tableStep, if_neg different,
              table_of_members at_ found]
            rfl
      | block this =>
          obtain ⟨place, members, x, at_, found, modified, reblocked⟩ := block_spec stepped
          refine ⟨?_, reblocked.linked linked (modified.placed placed)⟩
          obtain ⟨place', at', changed⟩ := modified.table placed
          cases at_.symm.trans at'
          rw [changed, tableStep, table_of_members at_ found]
          rfl
      | unblock this =>
          obtain ⟨place, members, at_, found, modified, reblocked⟩ := unblock_spec stepped
          refine ⟨?_, reblocked.linked linked (modified.placed placed)⟩
          obtain ⟨place', at', changed⟩ := modified.table placed
          cases at_.symm.trans at'
          rw [changed, tableStep, table_of_members at_ found]
          rfl
      | destroyBlock this =>
          obtain ⟨_, removed, reblocked⟩ := destroyBlock_spec stepped
          refine ⟨?_, reblocked.linked linked (removed.placed placed)⟩
          exact removed.table placed
      | _ => cases mine

/-! ### Shared blocking -/

omit [DecidableEq Name] in
theorem blockReference_eq (this : BlockId) :
    p.blockReference this = (p.table this).bind Prod.fst := by
  unfold blockReference table membersAt told
  cases p.blockAt this with
  | none => rfl
  | some place =>
      simp only [Option.bind_some]
      cases (p.signals place.1).blocks[place.2]? <;> rfl

omit [DecidableEq Name] in
theorem blocking_eq (this : BlockId) : p.blocking this = (p.table this).any Prod.snd := by
  unfold blocking record table membersAt told
  cases p.blockAt this with
  | none => rfl
  | some place =>
      simp only [Option.bind_some]
      cases (p.signals place.1).blocks[place.2]? <;> rfl

/-- A connection that is there is blocked exactly while some block on it is blocking. -/
def SharedBlocking (p : Program σ) : Prop :=
  ∀ body, p.alive body = true → ((p.signals body.1).blocked body.2 = true ↔
    ∃ this, p.blockReference this = some body ∧ p.blocking this = true)

/-- The blocks that an operation of a block is about; `next` is the name of a new one. -/
def operands (next : BlockId) : ProgramAction σ → List BlockId
  | .constructBlock _ _ _ => [next]
  | .copyConstructBlock _ => [next]
  | .moveConstructBlock other => [next, other]
  | .copyAssignBlock this _ => [this]
  | .moveAssignBlock this rhs => [this, rhs]
  | .block this => [this]
  | .unblock this => [this]
  | .destroyBlock this => [this]
  | _ => []

/-- The object that an operation makes a copy, and the one that it copies or moves. -/
def copies (next : BlockId) : ProgramAction σ → Option (BlockId × BlockId)
  | .copyConstructBlock other => some (next, other)
  | .moveConstructBlock other => some (next, other)
  | .copyAssignBlock this rhs => some (this, rhs)
  | .moveAssignBlock this rhs => some (this, rhs)
  | _ => none

/-- What `blocking`, `connection` and `blocked` say after a step. -/
structure BlockLaw (p : Program σ) (a : ProgramAction σ) (p' : Program σ) : Prop where
  block : ∀ this, a = .block this →
    p'.blocking this = true ∧ p'.blockReference this = p.blockReference this
  unblock : ∀ this, a = .unblock this →
    p'.blocking this = false ∧ p'.blockReference this = p.blockReference this
  constructed : ∀ home conn initiallyBlocked, a = .constructBlock home conn initiallyBlocked →
    p'.blocking p.blocks.length = initiallyBlocked ∧
      p'.blockReference p.blocks.length = p.reference conn
  copied : ∀ this source, copies p.blocks.length a = some (this, source) →
    p'.blocking this = p.blocking source ∧ p'.blockReference this = p.blockReference source
  others : ∀ this, this ∉ operands p.blocks.length a →
    p'.blocking this = p.blocking this ∧ p'.blockReference this = p.blockReference this
  elsewhere : ofBlock a = true → ∀ body, p.alive body = true →
    (∀ this ∈ operands p.blocks.length a,
      p.blockReference this ≠ some body ∧ p'.blockReference this ≠ some body) →
    (p'.signals body.1).blocked body.2 = (p.signals body.1).blocked body.2

omit [DecidableEq Name] in
theorem Linked.sharedBlocking (linked : p.Linked) : p.SharedBlocking := by
  rintro ⟨name, b⟩ alive
  rw [(linked.blocking name).blocked_iff alive]
  constructor
  · rintro ⟨members, member, target, holds⟩
    obtain ⟨k, inside, found⟩ := List.getElem_of_mem member
    have at_ : p.membersAt (name, k) = some members :=
      List.getElem?_eq_some_iff.mpr ⟨inside, found⟩
    have blocker : members.blocker ≠ none := by
      intro none
      rw [none] at holds
      cases holds
    obtain ⟨this, place⟩ := linked.placed.owned (name, k) members at_ blocker
    refine ⟨this, ?_, ?_⟩
    · rw [blockReference_eq, table_of_members place at_]
      simp [told, target]
    · rw [blocking_eq, table_of_members place at_]
      simpa [told] using holds
  · rintro ⟨this, target, holds⟩
    rw [blockReference_eq] at target
    rw [blocking_eq] at holds
    cases place : p.blockAt this with
    | none =>
        simp [table, place] at target
    | some spot =>
        obtain ⟨members, found⟩ := linked.placed.inside this spot place
        rw [table_of_members place found] at target holds
        obtain ⟨other, k⟩ := spot
        obtain ⟨c, body, same⟩ := Option.map_eq_some_iff.mp (show members.weakConnectionBody.map
          (Prod.mk other) = some (name, b) from target)
        cases same
        exact ⟨members, List.mem_of_getElem? found, body, holds⟩

/-- Only the rows of the operands change. -/
private theorem step_others (linked : p.Linked) (stepped : p.step a = some p') {this : BlockId}
    (aside : this ∉ operands p.blocks.length a) : p'.table this = p.table this := by
  rw [(step_table linked stepped).1]
  cases a with
  | moveAssignBlock target rhs =>
      simp only [operands, List.mem_cons, List.not_mem_nil, or_false, not_or] at aside
      simp only [tableStep]
      split
      · rfl
      · rw [Function.update_of_ne aside.2, Function.update_of_ne aside.1]
  | moveConstructBlock other =>
      simp only [operands, List.mem_cons, List.not_mem_nil, or_false, not_or] at aside
      rw [tableStep, Function.update_of_ne aside.2, Function.update_of_ne aside.1]
  | constructBlock home conn initiallyBlocked =>
      exact Function.update_of_ne (List.ne_of_not_mem_cons aside) _ _
  | copyConstructBlock other => exact Function.update_of_ne (List.ne_of_not_mem_cons aside) _ _
  | copyAssignBlock target rhs => exact Function.update_of_ne (List.ne_of_not_mem_cons aside) _ _
  | block target => exact Function.update_of_ne (List.ne_of_not_mem_cons aside) _ _
  | unblock target => exact Function.update_of_ne (List.ne_of_not_mem_cons aside) _ _
  | destroyBlock target => exact Function.update_of_ne (List.ne_of_not_mem_cons aside) _ _
  | _ => rfl

omit [DecidableEq Name] in
theorem exists_of_blockAt (linked : p.Linked) {this : BlockId} (there : p.blockAt this ≠ none) :
    ∃ row, p.table this = some row := by
  obtain ⟨place, at_⟩ := Option.ne_none_iff_exists'.mp there
  obtain ⟨members, found⟩ := linked.placed.inside this place at_
  exact ⟨_, table_of_members at_ found⟩

omit [DecidableEq Name] in
theorem Reblocked.refl (p : Program σ) : Reblocked p p := ⟨rfl, fun _ => .refl _⟩

theorem step_reblocked (linked : p.Linked) (mine : ofBlock a = true)
    (stepped : p.step a = some p') : Reblocked p p' := by
  cases a with
  | constructBlock home conn initiallyBlocked =>
      have known : ∀ body, p.reference conn = some body → body.2 < (p.signals body.1).nextBody :=
        fun body target => linked.known body ⟨conn, target⟩
      obtain ⟨_, _, _, _, _, _, _, reblocked⟩ := constructBlock_spec stepped known
      exact reblocked
  | copyConstructBlock other =>
      obtain ⟨_, _, _, _, _, reblocked⟩ := copyConstructBlock_spec stepped
      exact reblocked
  | moveConstructBlock other =>
      obtain ⟨_, _, _, _, _, _, _, reblocked⟩ := moveConstructBlock_spec stepped linked.placed
      exact reblocked
  | copyAssignBlock this rhs =>
      obtain ⟨_, _, _, _, _, _, reblocked⟩ := copyAssignBlock_spec stepped linked.placed
      exact reblocked
  | moveAssignBlock this rhs =>
      obtain ⟨_, _, _, _, ends⟩ := moveAssignBlock_spec stepped linked.placed
      rcases ends with ⟨_, rfl⟩ | ⟨_, _, _, _, _, reblocked⟩
      · exact .refl p'
      · exact reblocked
  | block this =>
      obtain ⟨_, _, _, _, _, _, reblocked⟩ := block_spec stepped
      exact reblocked
  | unblock this =>
      obtain ⟨_, _, _, _, _, reblocked⟩ := unblock_spec stepped
      exact reblocked
  | destroyBlock this =>
      obtain ⟨_, _, reblocked⟩ := destroyBlock_spec stepped
      exact reblocked
  | _ => cases mine

theorem Linked.law (linked : p.Linked) (stepped : p.step a = some p') : BlockLaw p a p' := by
  obtain ⟨after, linked'⟩ := step_table linked stepped
  exact {
    block := by
      intro this same
      subst same
      obtain ⟨place, _, _, at_, _⟩ := block_spec stepped
      have there : p.blockAt this ≠ none := by simp [at_]
      obtain ⟨row, shown⟩ := exists_of_blockAt linked there
      simp [blocking_eq, blockReference_eq, after, tableStep, shown]
    unblock := by
      intro this same
      subst same
      obtain ⟨place, _, at_, _⟩ := unblock_spec stepped
      have there : p.blockAt this ≠ none := by simp [at_]
      obtain ⟨row, shown⟩ := exists_of_blockAt linked there
      simp [blocking_eq, blockReference_eq, after, tableStep, shown]
    constructed := by
      intro home conn initiallyBlocked same
      subst same
      simp [blocking_eq, blockReference_eq, after, tableStep]
    copied := by
      intro this source same
      cases a with
      | copyConstructBlock other =>
          cases same
          simp [blocking_eq, blockReference_eq, after, tableStep]
      | moveConstructBlock other =>
          cases same
          obtain ⟨place, _, _, at_, _⟩ := moveConstructBlock_spec stepped linked.placed
          have old : p.blocks.length ≠ source := by
            intro equal
            subst equal
            simp [blockAt] at at_
          simp [blocking_eq, blockReference_eq, after, tableStep, Function.update_of_ne old]
      | copyAssignBlock target rhs =>
          cases same
          simp [blocking_eq, blockReference_eq, after, tableStep]
      | moveAssignBlock target rhs =>
          cases same
          by_cases onto : source = this
          · subst onto
            simp [blocking_eq, blockReference_eq, after, tableStep]
          · simp [blocking_eq, blockReference_eq, after, tableStep, onto,
              Function.update_of_ne (Ne.symm onto)]
      | _ => cases same
    others := by
      intro this aside
      rw [blocking_eq, blocking_eq, blockReference_eq, blockReference_eq,
        step_others linked stepped aside]
      exact ⟨rfl, rfl⟩
    elsewhere := by
      intro mine body alive foreign
      have kept := (step_reblocked linked mine stepped).signals body.1
      have alive' : p'.alive body = true := (kept.alive body.2).trans alive
      rw [Bool.eq_iff_iff, linked'.sharedBlocking body alive', linked.sharedBlocking body alive]
      constructor
      · rintro ⟨this, target, holds⟩
        have aside : this ∉ operands p.blocks.length a :=
          fun operand => (foreign this operand).2 target
        refine ⟨this, ?_⟩
        rw [blockReference_eq, blocking_eq, ← step_others linked stepped aside,
          ← blockReference_eq, ← blocking_eq]
        exact ⟨target, holds⟩
      · rintro ⟨this, target, holds⟩
        have aside : this ∉ operands p.blocks.length a :=
          fun operand => (foreign this operand).1 target
        refine ⟨this, ?_⟩
        rw [blockReference_eq, blocking_eq, step_others linked stepped aside,
          ← blockReference_eq, ← blocking_eq]
        exact ⟨target, holds⟩ }

omit [DecidableEq Name] in
theorem construct_linked (combiner : ∀ name, (σ name).Combiner)
    (defaultCompare groupCompare : ∀ name, (σ name).Group → (σ name).Group → Bool)
    (owners : Name → ObjectId → Nat) :
    (Program.construct combiner defaultCompare groupCompare owners).Linked where
  blocking name := World.construct_blocking _ _ _ _
  known body refers := by
    obtain ⟨this, target⟩ := refers
    simp [reference, object, construct] at target
  placed :=
    { inside := by
        intro this place at_
        simp [blockAt, construct] at at_
      distinct := by
        intro this other place at_
        simp [blockAt, construct] at at_
      owned := by
        intro place members found
        simp [membersAt, construct, World.construct] at found }

/-- With the mutex free, `block` and `unblock` do not wait. -/
theorem Linked.enabled (linked : p.Linked) {this : BlockId} {place : Name × BlockId}
    (at_ : p.blockAt this = some place) (sound : (p.signals place.1).fault = none)
    (free : (p.signals place.1).critical = none) :
    (∃ p', p.step (.block this) = some p') ∧ ∃ p', p.step (.unblock this) = some p' := by
  obtain ⟨members, found⟩ := linked.placed.inside this place at_
  obtain ⟨name, k⟩ := place
  constructor
  · obtain ⟨w, done⟩ := World.block_enabled found free
    have taken : (p.signals name).step (.block k) = some w := by
      simp only [World.step, sound, Option.isSome_none, Bool.false_eq_true, if_false, done]
    refine ⟨p.setSignal name w, ?_⟩
    simp only [step, block, at_, stepSignal, taken, Option.map_some]
  · obtain ⟨w, done⟩ : ∃ w, (p.signals name).unblock k = some w := by
      rw [World.unblock, show (p.signals name).blocks[k]? = some members from found]
      exact ⟨_, rfl⟩
    refine ⟨p.setSignal name w, ?_⟩
    simp only [step, unblock, at_, stepSignal, World.step, sound, Option.isSome_none,
      Bool.false_eq_true, if_false, done, Option.map_some]

theorem linked_of_run {combiner : ∀ name, (σ name).Combiner}
    {defaultCompare groupCompare : ∀ name, (σ name).Group → (σ name).Group → Bool}
    {owners : Name → ObjectId → Nat} {actions : List (ProgramAction σ)}
    (ran : Runs.run Program.step (Program.construct combiner defaultCompare groupCompare owners)
      actions = some p) : p.Linked :=
  Runs.run_invariant (fun _ _ _ holds _ stepped => (step_table holds stepped).2)
    (construct_linked combiner defaultCompare groupCompare owners)
    (Runs.Guarded.of_forall (fun _ _ _ => trivial)) ran

/-- In every run of any number of signals, connection objects and blocks, blocking is a
disjunction over the blocks, and each operation of a block changes what it should. -/
theorem shared_connection_block_runs {combiner : ∀ name, (σ name).Combiner}
    {defaultCompare groupCompare : ∀ name, (σ name).Group → (σ name).Group → Bool}
    {owners : Name → ObjectId → Nat} {actions : List (ProgramAction σ)}
    (ran : Runs.run Program.step (Program.construct combiner defaultCompare groupCompare owners)
      actions = some p) :
    p.SharedBlocking ∧ (∀ a p', p.step a = some p' → BlockLaw p a p') ∧
      ∀ this place, p.blockAt this = some place → (p.signals place.1).fault = none →
        (p.signals place.1).critical = none →
        (∃ p', p.step (.block this) = some p') ∧ ∃ p', p.step (.unblock this) = some p' := by
  have linked := linked_of_run ran
  refine ⟨linked.sharedBlocking, fun a p' => linked.law, ?_⟩
  intro this place at_ sound free
  exact linked.enabled at_ sound free

end

end Program

/-- Two blocks on one connection, one of them let go before the other. -/
def blockTwice : List (ProgramAction fun _ : Unit => natSignal) :=
  [.signal () (connectBack 10), .signal () .section, .refer ((), 0), .constructBlock () 0 true,
    .copyConstructBlock 0, .unblock 0, .signal () (.disconnect 0), .destroyBlock 1]

theorem blockTwice_shared :
    ∃ p : Program fun _ : Unit => natSignal,
      Runs.run Program.step natProgram blockTwice = some p ∧
      p.SharedBlocking ∧ (∀ a p', p.step a = some p' → Program.BlockLaw p a p') ∧
      ∀ this place, p.blockAt this = some place → (p.signals place.1).fault = none →
        (p.signals place.1).critical = none →
        (∃ p', p.step (.block this) = some p') ∧ ∃ p', p.step (.unblock this) = some p' := by
  have ends : (Runs.run Program.step natProgram blockTwice).isSome := by decide +kernel
  obtain ⟨p, ran⟩ := Option.isSome_iff_exists.mp ends
  exact ⟨p, ran, Program.shared_connection_block_runs (natProgram_start ▸ ran)⟩

end Signals2
