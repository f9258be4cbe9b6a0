/-
The blockers of one signal.  A body refers to its blocker weakly, the blocks that
block it share the blocker, and a block on a body that is gone has a blocker of its
own.  No blocker ever stands for two bodies, so a body is blocked exactly while a
block on it is blocking.
-/

import Signals2.BodyLifetimes

namespace Signals2

variable {σ : SignalTemplate}

namespace World

variable {w w' : World σ} {a : Action σ} {k : BlockId}

/-! ### What `block` does -/

/-- The ways in which `shared_connection_block::block` ends. -/
inductive BlockEffect (w : World σ) (k : BlockId) (members : SharedConnectionBlock) :
    World σ → Prop
  | already (x : BlockerId) (blocking : members.blocker = some x) : BlockEffect w k members w
  | gone (idle : members.blocker = none)
      (dead : ∀ b, members.weakConnectionBody = some b → w.bodyAlive b = false) :
      BlockEffect w k members { w with
        blocks := w.blocks.set k { members with blocker := some w.nextBlocker }
        nextBlocker := w.nextBlocker + 1 }
  | shared (b : BodyId) (x : BlockerId) (idle : members.blocker = none)
      (target : members.weakConnectionBody = some b) (alive : w.bodyAlive b = true)
      (current : (w.bodies b).weakBlocker = some x) (held : w.blockerAlive x = true) :
      BlockEffect w k members { w with
        blocks := w.blocks.set k { members with blocker := some x } }
  | fresh (b : BodyId) (idle : members.blocker = none)
      (target : members.weakConnectionBody = some b) (alive : w.bodyAlive b = true)
      (expired : ∀ x, (w.bodies b).weakBlocker = some x → w.blockerAlive x = false) :
      BlockEffect w k members
        { w.setBody b { w.bodies b with weakBlocker := some w.nextBlocker } with
          blocks := w.blocks.set k { members with blocker := some w.nextBlocker }
          nextBlocker := w.nextBlocker + 1 }

theorem getBlocker_cases (b : BodyId) :
    (∃ x, (w.bodies b).weakBlocker = some x ∧ w.blockerAlive x = true ∧
      w.getBlocker b = (w, x)) ∨
    (∀ x, (w.bodies b).weakBlocker = some x → w.blockerAlive x = false) ∧
      w.getBlocker b =
        ({ w.setBody b { w.bodies b with weakBlocker := some w.nextBlocker } with
          nextBlocker := w.nextBlocker + 1 }, w.nextBlocker) := by
  unfold getBlocker
  cases weak : (w.bodies b).weakBlocker with
  | none =>
      right
      constructor
      · intro x impossible
        cases impossible
      · rfl
  | some x =>
      cases held : w.blockerAlive x with
      | true => exact .inl ⟨x, rfl, held, by simp [held]⟩
      | false =>
          right
          constructor
          · intro x' same
            cases same
            exact held
          · simp [held]

theorem block_cases (stepped : w.block k = some w') :
    ∃ members, w.blocks[k]? = some members ∧ BlockEffect w k members w' := by
  unfold block at stepped
  split at stepped
  · cases stepped
  · rename_i members found
    refine ⟨members, found, ?_⟩
    cases idle : members.blocker with
    | some x =>
        rw [idle] at stepped
        cases stepped
        exact .already x idle
    | none =>
        simp only [idle, Option.isSome_none, Bool.false_eq_true, if_false] at stepped
        split at stepped
        · rename_i noBody
          cases stepped
          apply BlockEffect.gone idle
          intro b target
          rw [target, Option.filter_some] at noBody
          cases alive : w.bodyAlive b with
          | false => rfl
          | true =>
              rw [alive] at noBody
              cases noBody
        · rename_i b found'
          obtain ⟨target, alive⟩ := Option.filter_eq_some_iff.mp found'
          split at stepped
          · cases stepped
          · rcases w.getBlocker_cases b with ⟨x, current, held, same⟩ | ⟨expired, same⟩
            · rw [same] at stepped
              cases stepped
              exact .shared b x idle target alive current held
            · rw [same] at stepped
              cases stepped
              exact .fresh b idle target alive expired

/-- With the mutex free, blocking an existing block does not wait. -/
theorem block_enabled {members : SharedConnectionBlock} (found : w.blocks[k]? = some members)
    (free : w.critical = none) : ∃ w', w.block k = some w' := by
  unfold block
  rw [found]
  dsimp only
  split
  · exact ⟨_, rfl⟩
  · split
    · exact ⟨_, rfl⟩
    · rw [free]
      exact ⟨_, rfl⟩

/-! ### Operations of blocks leave bodies alive -/

theorem bodyAlive_congr (heap : w'.heap = w.heap) (invocations : w'.invocations = w.invocations)
    (traversals : w'.traversals = w.traversals) (critical : w'.critical = w.critical)
    (trash : w'.trash = w.trash) (b : BodyId) : w'.bodyAlive b = w.bodyAlive b := by
  simp only [bodyAlive, liveStates, listOf, sectionBody, heap, invocations, traversals, critical,
    trash]

theorem BlockEffect.alive {members : SharedConnectionBlock} (effect : BlockEffect w k members w')
    (b : BodyId) : w'.bodyAlive b = w.bodyAlive b := by
  cases effect with
  | already x blocking => rfl
  | gone idle dead => exact bodyAlive_congr rfl rfl rfl rfl rfl b
  | shared c x idle target alive current held => exact bodyAlive_congr rfl rfl rfl rfl rfl b
  | fresh c idle target alive expired => exact bodyAlive_congr rfl rfl rfl rfl rfl b

/-! ### The invariant -/

structure Blocking (w : World σ) : Prop where
  below : ∀ members ∈ w.blocks, ∀ b, members.weakConnectionBody = some b → b < w.nextBody
  bodyBlocker : ∀ b x, (w.bodies b).weakBlocker = some x → x < w.nextBlocker
  blockBlocker : ∀ members ∈ w.blocks, ∀ x, members.blocker = some x → x < w.nextBlocker
  -- a blocker stands for one body
  single : ∀ b c x, (w.bodies b).weakBlocker = some x → (w.bodies c).weakBlocker = some x → b = c
  tied : ∀ members ∈ w.blocks, ∀ x b, members.blocker = some x →
    (w.bodies b).weakBlocker = some x → members.weakConnectionBody = some b
  -- as long as the body is there, all its blocks have the blocker that it refers to
  current : ∀ members ∈ w.blocks, ∀ x b, members.blocker = some x →
    members.weakConnectionBody = some b → w.bodyAlive b = true →
    (w.bodies b).weakBlocker = some x

theorem construct_blocking (combiner : σ.Combiner)
    (defaultCompare groupCompare : σ.Group → σ.Group → Bool) (owners : ObjectId → Nat) :
    (World.construct combiner defaultCompare groupCompare owners).Blocking where
  below members member := by cases member
  bodyBlocker b x weak := by cases weak
  blockBlocker members member := by cases member
  single b c x weak := by cases weak
  tied members member := by cases member
  current members member := by cases member

/-- A body that is alive is blocked exactly if some block on it is blocking. -/
theorem Blocking.blocked_iff (blocking : w.Blocking) {b : BodyId} (alive : w.bodyAlive b = true) :
    w.blocked b = true ↔ ∃ members ∈ w.blocks, members.weakConnectionBody = some b ∧
      members.blocker.isSome = true := by
  unfold blocked
  constructor
  · intro blocked
    cases weak : (w.bodies b).weakBlocker with
    | none =>
        rw [weak] at blocked
        cases blocked
    | some x =>
        rw [weak] at blocked
        obtain ⟨members, member, holds⟩ := List.any_eq_true.mp blocked
        have same : members.blocker = some x := by simpa using holds
        refine ⟨members, member, blocking.tied members member x b same weak, ?_⟩
        rw [same]
        rfl
  · rintro ⟨members, member, target, holds⟩
    obtain ⟨x, same⟩ := Option.isSome_iff_exists.mp holds
    rw [blocking.current members member x b same target alive]
    exact List.any_eq_true.mpr ⟨members, member, by simp [same]⟩

/-! ### What every step keeps -/

theorem Blocking.aside (blocking : w.Blocking) (aside : BlocksKept w w')
    (grows : w.nextBody ≤ w'.nextBody)
    (alive : ∀ b, w'.bodyAlive b = true → w.bodyAlive b = true ∨ b = w.nextBody) :
    w'.Blocking where
  below members member b target := by
    rw [aside.blocks] at member
    exact Nat.lt_of_lt_of_le (blocking.below members member b target) grows
  bodyBlocker b x weak := by
    rw [aside.nextBlocker]
    rcases aside.weakBlocker b with same | ⟨_, none⟩
    · exact blocking.bodyBlocker b x (same ▸ weak)
    · rw [none] at weak
      cases weak
  blockBlocker members member x holds := by
    rw [aside.blocks] at member
    rw [aside.nextBlocker]
    exact blocking.blockBlocker members member x holds
  single b c x weak weak' := by
    rcases aside.weakBlocker b with same | ⟨_, none⟩
    · rcases aside.weakBlocker c with same' | ⟨_, none⟩
      · exact blocking.single b c x (same ▸ weak) (same' ▸ weak')
      · rw [none] at weak'
        cases weak'
    · rw [none] at weak
      cases weak
  tied members member x b holds weak := by
    rw [aside.blocks] at member
    rcases aside.weakBlocker b with same | ⟨_, none⟩
    · exact blocking.tied members member x b holds (same ▸ weak)
    · rw [none] at weak
      cases weak
  current members member x b holds target alive' := by
    rw [aside.blocks] at member
    have below := blocking.below members member b target
    have old : b ≠ w.nextBody := Nat.ne_of_lt below
    rcases aside.weakBlocker b with same | ⟨new, _⟩
    · rw [same]
      exact blocking.current members member x b holds target ((alive b alive').resolve_right old)
    · exact absurd new old

theorem Blocking.step (blocking : w.Blocking) (other : a.ofBlock = false)
    (stepped : w.step a = some w') : w'.Blocking :=
  blocking.aside (step_blocksKept other stepped) (step_effect stepped).2.nextBody_le
    fun _ => step_alive other stepped

/-- Members whose blocker is one that a block on the same body had, or none. -/
theorem Blocking.replace (blocking : w.Blocking) {blocks : List SharedConnectionBlock}
    (known : ∀ members ∈ blocks, members ∈ w.blocks ∨ members.blocker = none ∧
      ∀ b, members.weakConnectionBody = some b → b < w.nextBody) :
    ({ w with blocks := blocks } : World σ).Blocking where
  below members member b target := by
    rcases known members member with old | ⟨_, below⟩
    · exact blocking.below members old b target
    · exact below b target
  bodyBlocker := blocking.bodyBlocker
  blockBlocker members member x holds := by
    rcases known members member with old | ⟨idle, _⟩
    · exact blocking.blockBlocker members old x holds
    · rw [idle] at holds
      cases holds
  single := blocking.single
  tied members member x b holds weak := by
    rcases known members member with old | ⟨idle, _⟩
    · exact blocking.tied members old x b holds weak
    · rw [idle] at holds
      cases holds
  current members member x b holds target alive := by
    rcases known members member with old | ⟨idle, _⟩
    · exact blocking.current members old x b holds target alive
    · rw [idle] at holds
      cases holds

theorem weakBlocker_setBody (b c : BodyId) (x : Option BlockerId) :
    ((w.setBody b { w.bodies b with weakBlocker := x }).bodies c).weakBlocker =
      if c = b then x else (w.bodies c).weakBlocker := by
  by_cases same : c = b
  · subst same
    simp [setBody, BodyStore.setBody]
  · simp [setBody, BodyStore.setBody, same]

private theorem Blocking.below_set (blocking : w.Blocking) {members : SharedConnectionBlock}
    (here : members ∈ w.blocks) {x : Option BlockerId} :
    ∀ other ∈ w.blocks.set k { members with blocker := x },
      ∀ b, other.weakConnectionBody = some b → b < w.nextBody := by
  intro other member b target
  rcases List.mem_or_eq_of_mem_set member with old | rfl
  · exact blocking.below other old b target
  · exact blocking.below members here b target

theorem Blocking.block (blocking : w.Blocking) {members : SharedConnectionBlock}
    (found : w.blocks[k]? = some members) (effect : BlockEffect w k members w') :
    w'.Blocking := by
  have here : members ∈ w.blocks := List.mem_of_getElem? found
  have keptAlive := effect.alive
  cases effect with
  | already x holds => exact blocking
  | gone idle dead =>
      exact {
        below := blocking.below_set here
        bodyBlocker := by
          intro b x weak
          exact Nat.lt_succ_of_lt (blocking.bodyBlocker b x weak)
        blockBlocker := by
          intro other member x holds
          rcases List.mem_or_eq_of_mem_set member with old | rfl
          · exact Nat.lt_succ_of_lt (blocking.blockBlocker other old x holds)
          · cases holds
            exact Nat.lt_succ_self _
        single := blocking.single
        tied := by
          intro other member x b holds weak
          rcases List.mem_or_eq_of_mem_set member with old | rfl
          · exact blocking.tied other old x b holds weak
          · cases holds
            exact absurd (blocking.bodyBlocker b _ weak) (Nat.lt_irrefl _)
        current := by
          intro other member x b holds target alive
          rw [keptAlive] at alive
          rcases List.mem_or_eq_of_mem_set member with old | rfl
          · exact blocking.current other old x b holds target alive
          · rw [dead b target] at alive
            cases alive }
  | shared c y idle target' alive' current held =>
      exact {
        below := blocking.below_set here
        bodyBlocker := blocking.bodyBlocker
        blockBlocker := by
          intro other member x holds
          rcases List.mem_or_eq_of_mem_set member with old | rfl
          · exact blocking.blockBlocker other old x holds
          · cases holds
            exact blocking.bodyBlocker c _ current
        single := blocking.single
        tied := by
          intro other member x b holds weak
          rcases List.mem_or_eq_of_mem_set member with old | rfl
          · exact blocking.tied other old x b holds weak
          · cases holds
            rw [blocking.single b c _ weak current]
            exact target'
        current := by
          intro other member x b holds target alive
          rcases List.mem_or_eq_of_mem_set member with old | rfl
          · exact blocking.current other old x b holds target (keptAlive b ▸ alive)
          · cases holds
            cases target'.symm.trans target
            exact current }
  | fresh c idle target' alive' expired =>
      have weak' : ∀ b, ((w.setBody c { w.bodies c with weakBlocker := some w.nextBlocker }).bodies
          b).weakBlocker = if b = c then some w.nextBlocker else (w.bodies b).weakBlocker :=
        fun b => weakBlocker_setBody c b _
      exact {
        below := blocking.below_set here
        bodyBlocker := by
          intro b x weak
          rw [weak' b] at weak
          split at weak
          · cases weak
            exact Nat.lt_succ_self _
          · exact Nat.lt_succ_of_lt (blocking.bodyBlocker b x weak)
        blockBlocker := by
          intro other member x holds
          rcases List.mem_or_eq_of_mem_set member with old | rfl
          · exact Nat.lt_succ_of_lt (blocking.blockBlocker other old x holds)
          · cases holds
            exact Nat.lt_succ_self _
        single := by
          intro b d x first second
          rw [weak' b] at first
          rw [weak' d] at second
          split at first
          · cases first
            split at second
            · subst b d
              rfl
            · exact absurd (blocking.bodyBlocker d _ second) (Nat.lt_irrefl _)
          · split at second
            · cases second
              exact absurd (blocking.bodyBlocker b _ first) (Nat.lt_irrefl _)
            · exact blocking.single b d x first second
        tied := by
          intro other member x b holds weak
          rw [weak' b] at weak
          rcases List.mem_or_eq_of_mem_set member with old | rfl
          · split at weak
            · cases weak
              exact absurd (blocking.blockBlocker other old _ holds) (Nat.lt_irrefl _)
            · exact blocking.tied other old x b holds weak
          · cases holds
            split at weak
            · subst b
              exact target'
            · exact absurd (blocking.bodyBlocker b _ weak) (Nat.lt_irrefl _)
        current := by
          intro other member x b holds target alive
          rw [weak' b]
          rcases List.mem_or_eq_of_mem_set member with old | rfl
          · split
            · subst b
              have weak := blocking.current other old x c holds target alive'
              have held : w.blockerAlive x = true :=
                List.any_eq_true.mpr ⟨other, old, by simp [holds]⟩
              rw [expired x weak] at held
              cases held
            · exact blocking.current other old x b holds target (keptAlive b ▸ alive)
          · cases holds
            cases target'.symm.trans target
            rw [if_pos rfl] }

end World

end Signals2
