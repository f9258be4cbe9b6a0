/-
Isolation of combiners.  `set_combiner` asks whether anybody else holds the shared
state, but two states can share a combiner: a copy of the slot list takes the combiner
along.  An invocation keeps its combiner unassigned exactly in the runs in which no
call of `set_combiner` comes upon such a copy; what later invocations run with is
right in every run.
-/

import Signals2.SnapshotIsolation

namespace Signals2

open LinkedLists

variable {σ : SignalTemplate}

/-- What happens to the shared state during an invocation.  A call of `set_combiner`
finds it `alone` when `_shared_state.unique()` holds. -/
inductive SharedStateEvent where
  | listCopied
  | combinerSet (alone : Bool)
deriving DecidableEq, Repr

/-- Once the list has been copied, a call of `set_combiner` that finds the state alone is
not the first one. -/
def SetsHarmlessly (past : List SharedStateEvent) (event : SharedStateEvent) : Prop :=
  event = .combinerSet true → .listCopied ∈ past → ∃ alone, .combinerSet alone ∈ past

namespace World

variable {w w' : World σ} {a : Action σ} {i : InvocationId} {s t : StateId}

/-! ### What is observed -/

/-- The state whose list and combiner an invocation in progress uses. -/
def stateOf (w : World σ) (i : InvocationId) : Option StateId :=
  w.invocations[i]?.bind Invocation.localState

/-- The step makes a new slot list. -/
def copiesList (w : World σ) (a : Action σ) : Bool :=
  match w.step a with
  | none => false
  | some w' => w.heap.nextList < w'.heap.nextList

/-- Nothing is recorded before the invocation has begun and after it has ended. -/
def sharedStateEvents (i : InvocationId) (w : World σ) (a : Action σ) :
    List SharedStateEvent :=
  if w.stateOf i = none then []
  else
    match a with
    | .setCombiner _ => [.combinerSet (w.shared.any w.unique)]
    | _ => if w.copiesList a then [.listCopied] else []

/-- The combiner object that an action assigns to. -/
def assignedCombiner (w : World σ) : Action σ → Option CombinerId
  | .setCombiner _ =>
      if w.shared.any w.unique then w.shared.map fun s => (w.heap.states s).combiner else none
  | _ => none

/-- The assignments to the combiner object that an invocation in progress runs. -/
def ownAssignments (i : InvocationId) (w : World σ) (a : Action σ) : List CombinerId :=
  match w.stateOf i with
  | none => []
  | some s =>
      if w.assignedCombiner a = some (w.heap.states s).combiner then
        [(w.heap.states s).combiner]
      else []

/-- The combiner that an invocation with this local state runs. -/
def combinerOf (w : World σ) (s : StateId) : σ.Combiner :=
  w.heap.combiners (w.heap.states s).combiner

/-- An invocation in progress at both moments has the same combiner object with the
same value in it. -/
def CombinerKept (w w' : World σ) (i : InvocationId) : Prop :=
  ∀ s, w.stateOf i = some s → w'.stateOf i ≠ none →
    w'.stateOf i = some s ∧
    (w'.heap.states s).combiner = (w.heap.states s).combiner ∧
    w'.combinerOf s = w.combinerOf s

/-- Throughout the run nobody assigns to the combiner object of the invocation while it
is in progress, and nothing else changes it. -/
structure CombinerIsolated (start : World σ) (actions : List (Action σ)) (i : InvocationId) :
    Prop where
  unassigned : Runs.outputs World.step (ownAssignments i) start actions = []
  kept : ∀ earlier during later w w', actions = earlier ++ during ++ later →
    Runs.run World.step start earlier = some w → Runs.run World.step w during = some w' →
    CombinerKept w w' i

/-- Every invocation that starts after a call of `set_combiner` and before the next one
runs with what the call set. -/
def CombinersTakeEffect (start : World σ) (actions : List (Action σ)) : Prop :=
  ∀ earlier combiner since later w w',
    actions = earlier ++ .setCombiner combiner :: since ++ later →
    (∀ other, .setCombiner other ∉ since) →
    Runs.run World.step start earlier = some w →
    Runs.run World.step w (.setCombiner combiner :: since) = some w' →
    ∀ i s, w.invocations.length ≤ i → w'.stateOf i = some s → w'.combinerOf s = combiner

/-! ### Invocations in progress -/

theorem stateOf_eq_some :
    w.stateOf i = some s ↔ (w.readers .invocation)[i]? = some (some s) := by
  simp [stateOf, readers, Option.bind_eq_some_iff]

theorem stateOf_mem (running : w.stateOf i = some s) : some s ∈ w.readers .invocation :=
  List.mem_of_getElem? (stateOf_eq_some.mp running)

theorem stateOf_kept (change : Change w a w') (running : w.stateOf i = some s) :
    w'.stateOf i = some s ∨ w'.stateOf i = none := by
  obtain ⟨y, there, same | gone⟩ :=
    (change.readers .invocation).persists (stateOf_eq_some.mp running)
  · subst same
    exact .inl (stateOf_eq_some.mpr there)
  · subst gone
    right
    cases now : w'.stateOf i with
    | none => rfl
    | some t =>
        rw [stateOf_eq_some.mp now] at there
        cases there

theorem stateOf_same (change : Change w a w') (running : w.stateOf i = some s)
    (later : w'.stateOf i = some t) : t = s := by
  rcases stateOf_kept change running with kept | gone
  · exact Option.some.inj (later.symm.trans kept)
  · rw [gone] at later
    cases later

/-- An invocation begins with the shared state. -/
theorem stateOf_origin (change : Change w a w') (running : w'.stateOf i = some s) :
    w.stateOf i = some s ∨ w.invocations.length ≤ i ∧ w'.shared = some s := by
  rcases (change.readers .invocation).origin (stateOf_eq_some.mp running) with before | current
  · exact .inl (stateOf_eq_some.mpr before)
  · rcases Nat.lt_or_ge i w.invocations.length with old | new
    · left
      have here : (w.readers .invocation)[i]? = some (w.readers .invocation)[i]! := by
        simp [readers, old]
      obtain ⟨y, there, origin⟩ := (change.readers .invocation).persists here
      rw [stateOf_eq_some.mp running] at there
      rcases origin with same | gone
      · apply stateOf_eq_some.mpr
        rw [here, ← same]
        exact there.symm
      · rw [gone] at there
        cases there
    · exact .inr ⟨new, current⟩

theorem stateOf_below (change : Change w a w') (running : w.stateOf i = some s) :
    i < w'.invocations.length := by
  obtain ⟨inv, found, _⟩ := Option.bind_eq_some_iff.mp running
  exact Nat.lt_of_lt_of_le (List.getElem?_eq_some_iff.mp found).1 change.joins

/-! ### What a step does to combiners -/

/-- Apart from `set_combiner`, nothing assigns to combiners, and a new shared state takes
its combiner from the old one. -/
theorem HeapChange.combiners {heap heap' : Heap σ} {running : Bool} {unique : StateId → Bool}
    (change : HeapChange heap running unique a heap')
    (other : ∀ combiner, a ≠ .setCombiner combiner) :
    heap'.combiners = heap.combiners ∧ ∀ impl', heap'.impl = some impl' →
      ∃ impl, heap.impl = some impl ∧
        (heap'.states impl'.sharedState).combiner = (heap.states impl.sharedState).combiner ∧
        (impl'.sharedState = impl.sharedState ∨ heap.nextList < heap'.nextList) := by
  cases change with
  | same => exact ⟨rfl, fun impl' present' => ⟨impl', present', rfl, .inl rfl⟩⟩
  | sweep impl list it running present name =>
      constructor
      · rfl
      · intro impl' present'
        cases present'
        exact ⟨impl, present, rfl, .inl rfl⟩
  | copy impl present =>
      have taken : ((heap.copyConnectionBodies impl).states heap.nextState).combiner =
          (heap.states impl.sharedState).combiner := by simp [Heap.copyConnectionBodies]
      constructor
      · rfl
      · intro impl' present'
        cases present'
        exact ⟨impl, present, taken, .inr (Nat.lt_succ_self _)⟩
  | assign combiner impl present alone => exact absurd rfl (other combiner)
  | replace combiner impl present => exact absurd rfl (other combiner)
  | destroy =>
      constructor
      · rfl
      · intro impl' present'
        cases present'

theorem shared_step (stepped : w.step a = some w') (other : ∀ combiner, a ≠ .setCombiner combiner)
    (current : w'.shared = some t) :
    ∃ r, w.shared = some r ∧ (w'.heap.states t).combiner = (w.heap.states r).combiner ∧
      (t = r ∨ w.copiesList a = true) := by
  obtain ⟨impl', present', rfl⟩ := Option.map_eq_some_iff.mp current
  obtain ⟨impl, present, same, which⟩ :=
    ((step_effect stepped).2.change.heap.combiners other).2 impl' present'
  refine ⟨impl.sharedState, shared_of_present present, same, which.imp id fun more => ?_⟩
  simp [copiesList, stepped, more]

theorem setCombiner_cases {combiner : σ.Combiner}
    (stepped : w.step (.setCombiner combiner) = some w') :
    ∃ impl, w.heap.impl = some impl ∧
      (w.unique impl.sharedState = true ∧ w' = w.setHeap (w.heap.assignCombiner impl combiner) ∨
        w.unique impl.sharedState = false ∧
          w' = w.setHeap (w.heap.replaceCombiner impl combiner)) := by
  have sound := (step_effect stepped).1
  simp only [World.step, sound, Option.isSome_none, Bool.false_eq_true, if_false] at stepped
  obtain ⟨impl, locked, rfl⟩ := Option.map_eq_some_iff.mp stepped
  refine ⟨impl, (lockImpl_some locked).2, ?_⟩
  cases alone : w.unique impl.sharedState with
  | true => exact .inl ⟨rfl, by simp⟩
  | false => exact .inr ⟨rfl, by simp⟩

/-! ### Along a run -/

/-- What has been recorded during an invocation tells how its state and the shared state
are related, and which calls of `set_combiner` have been harmless. -/
structure Watched (i : InvocationId) (past : List SharedStateEvent) (assigned : List CombinerId)
    (w : World σ) : Prop where
  sharing : w.Sharing
  unborn : w.invocations.length ≤ i → past = []
  current : past = [] → ∀ s t, w.stateOf i = some s → w.shared = some t → t = s
  shares : (∀ alone, .combinerSet alone ∉ past) → ∀ s t, w.stateOf i = some s →
    w.shared = some t → (w.heap.states t).combiner = (w.heap.states s).combiner
  apart : assigned = [] → ∀ alone, .combinerSet alone ∈ past → ∀ s t, w.stateOf i = some s →
    w.shared = some t → (w.heap.states t).combiner ≠ (w.heap.states s).combiner
  exactly_ : assigned = [] ↔ Runs.Along SetsHarmlessly past

theorem construct_watched (combiner : σ.Combiner)
    (defaultCompare groupCompare : σ.Group → σ.Group → Bool) (owners : ObjectId → Nat) :
    Watched i [] [] (World.construct combiner defaultCompare groupCompare owners) where
  sharing := construct_sharing combiner defaultCompare groupCompare owners
  unborn _ := rfl
  current _ s t running := by cases running
  shares _ s t running := by cases running
  apart _ alone member := by cases member
  exactly_ := ⟨fun _ => .nil, fun _ => rfl⟩

variable {past : List SharedStateEvent} {assigned : List CombinerId}

/-- Nothing is recorded while the invocation is not in progress. -/
theorem Watched.aside (watched : Watched i past assigned w) (stepped : w.step a = some w')
    (idle : w.stateOf i = none) : Watched i past assigned w' := by
  have effect := (step_effect stepped).2
  have begins : ∀ s, w'.stateOf i = some s → past = [] ∧ w'.shared = some s := by
    intro s running
    rcases stateOf_origin effect.change running with before | ⟨new, current⟩
    · rw [idle] at before
      cases before
    · exact ⟨watched.unborn new, current⟩
  exact {
    sharing := watched.sharing.step effect.change
    unborn := fun short => watched.unborn (Nat.le_trans effect.change.joins short)
    current := by
      intro _ s t running current
      exact Option.some.inj (current.symm.trans (begins s running).2)
    shares := by
      intro _ s t running current
      rw [Option.some.inj (current.symm.trans (begins s running).2)]
    apart := by
      intro _ alone member s t running
      rw [(begins s running).1] at member
      cases member
    exactly_ := watched.exactly_ }

theorem Watched.other (watched : Watched i past assigned w) (stepped : w.step a = some w')
    (other : ∀ combiner, a ≠ .setCombiner combiner) (running : w.stateOf i = some s) :
    Watched i (past ++ if w.copiesList a then [.listCopied] else []) assigned w' := by
  have change := (step_effect stepped).2.change
  have state := change.heap.states (watched.sharing.readers .invocation s (stateOf_mem running))
  have recorded : ∀ alone,
      .combinerSet alone ∈ past ++ (if w.copiesList a then [.listCopied] else []) →
        .combinerSet alone ∈ past := by
    intro alone member
    rcases List.mem_append.mp member with before | new
    · exact before
    · split at new
      · cases List.mem_singleton.mp new
      · cases new
  exact {
    sharing := watched.sharing.step change
    unborn := fun short => absurd (stateOf_below change running) (Nat.not_lt_of_le short)
    current := by
      intro nothing r t running' current'
      obtain ⟨before, uncopied⟩ := List.append_eq_nil_iff.mp nothing
      obtain ⟨t', current, _, which⟩ := shared_step stepped other current'
      have same : t = t' := by
        rcases which with same | copied
        · exact same
        · simp [copied] at uncopied
      rw [stateOf_same change running running', same]
      exact watched.current before s t' running current
    shares := by
      intro unset r t running' current'
      obtain ⟨t', current, same, _⟩ := shared_step stepped other current'
      rw [stateOf_same change running running', state, same]
      exact watched.shares (fun alone member => unset alone (List.mem_append_left _ member)) s t'
        running current
    apart := by
      intro none_ alone member r t running' current'
      obtain ⟨t', current, same, _⟩ := shared_step stepped other current'
      rw [stateOf_same change running running', state, same]
      exact watched.apart none_ alone (recorded alone member) s t' running current
    exactly_ := by
      rw [watched.exactly_]
      split
      · constructor
        · intro along
          exact along.snoc fun impossible => by cases impossible
        · exact Runs.Along.init
      · rw [List.append_nil] }

theorem ownAssignments_set {combiner : σ.Combiner} (running : w.stateOf i = some s)
    (current : w.shared = some t) :
    ownAssignments i w (.setCombiner combiner) = [] ↔
      (w.unique t = true → (w.heap.states t).combiner ≠ (w.heap.states s).combiner) := by
  cases alone : w.unique t with
  | false => simp [ownAssignments, assignedCombiner, running, current, alone]
  | true => simp [ownAssignments, assignedCombiner, running, current, alone]

/-- The call assigns to the combiner of the invocation exactly if it comes upon a copy of
the list that took the combiner along. -/
theorem Watched.harmless (watched : Watched i past assigned w) (running : w.stateOf i = some s)
    (current : w.shared = some t) (none_ : assigned = []) :
    (w.unique t = true → (w.heap.states t).combiner ≠ (w.heap.states s).combiner) ↔
      SetsHarmlessly past (.combinerSet (w.unique t)) := by
  cases alone : w.unique t with
  | false =>
      constructor
      · intro _ impossible
        cases impossible
      · intro _ impossible
        cases impossible
  | true =>
      by_cases set_ : ∃ earlier, .combinerSet earlier ∈ past
      · obtain ⟨earlier, member⟩ := set_
        constructor
        · intro _ _ _
          exact ⟨earlier, member⟩
        · intro _ _
          exact watched.apart none_ earlier member s t running current
      · have unset : ∀ earlier, .combinerSet earlier ∉ past :=
          fun earlier member => set_ ⟨earlier, member⟩
        constructor
        · intro differs
          exact absurd (watched.shares unset s t running current) (differs rfl)
        · intro harmless
          -- the shared state is not the one that the invocation reads
          have other : t ≠ s := by
            intro same
            exact not_reader_of_unique current alone .invocation (same ▸ stateOf_mem running)
          have copied : .listCopied ∈ past := by
            cases past with
            | nil => exact absurd (watched.current rfl s t running current) other
            | cons event rest =>
                cases event with
                | listCopied => exact List.mem_cons_self
                | combinerSet earlier => exact absurd List.mem_cons_self (unset earlier)
          exact absurd (harmless rfl copied) set_

theorem Watched.set (watched : Watched i past assigned w) {combiner : σ.Combiner}
    (stepped : w.step (.setCombiner combiner) = some w') (running : w.stateOf i = some s) :
    Watched i (past ++ [.combinerSet (w.shared.any w.unique)])
      (assigned ++ ownAssignments i w (.setCombiner combiner)) w' := by
  have change := (step_effect stepped).2.change
  have below := watched.sharing.readers .invocation s (stateOf_mem running)
  have state := change.heap.states below
  obtain ⟨impl, present, how⟩ := setCombiner_cases stepped
  have current := shared_of_present present
  have own : ownAssignments i w (.setCombiner combiner) = [] ↔ _ :=
    ownAssignments_set running current
  have alone : w.shared.any w.unique = w.unique impl.sharedState := by simp [current]
  rw [alone]
  exact {
    sharing := watched.sharing.step change
    unborn := fun short => absurd (stateOf_below change running) (Nat.not_lt_of_le short)
    current := by
      intro nothing
      cases (List.append_eq_nil_iff.mp nothing).2
    shares := by
      intro unset
      exact absurd (List.mem_append_right _ List.mem_cons_self) (unset _)
    apart := by
      intro none_ _ _ r t running' current'
      rw [stateOf_same change running running', state]
      rcases how with ⟨unshared, rfl⟩ | ⟨_, rfl⟩
      · have differs := own.mp (List.append_eq_nil_iff.mp none_).2 unshared
        have still : t = impl.sharedState := Option.some.inj (current'.symm.trans current)
        rw [still]
        exact differs
      · -- the combiner of the new state is new
        cases current'
        have new : ((w.heap.replaceCombiner impl combiner).states w.heap.nextState).combiner =
            w.heap.nextCombiner := by simp [Heap.replaceCombiner]
        intro equal
        have older := watched.sharing.heap.combiners s below
        exact Nat.ne_of_gt older (new.symm.trans equal)
    exactly_ := by
      rw [List.append_eq_nil_iff]
      constructor
      · rintro ⟨none_, unassigned⟩
        have harmless := (watched.harmless running current none_).mp (own.mp unassigned)
        exact (watched.exactly_.mp none_).snoc harmless
      · intro along
        have none_ := watched.exactly_.mpr along.init
        have harmless := along past _ [] rfl
        exact ⟨none_, own.mpr ((watched.harmless running current none_).mpr harmless)⟩ }

theorem Watched.step (watched : Watched i past assigned w) (stepped : w.step a = some w') :
    Watched i (past ++ sharedStateEvents i w a) (assigned ++ ownAssignments i w a) w' := by
  cases running : w.stateOf i with
  | none =>
      have idle := watched.aside stepped running
      simpa [sharedStateEvents, ownAssignments, running] using idle
  | some s =>
      by_cases sets : ∃ combiner, a = .setCombiner combiner
      · obtain ⟨combiner, rfl⟩ := sets
        have set_ := watched.set stepped running
        simpa [sharedStateEvents, running] using set_
      · have other : ∀ combiner, a ≠ .setCombiner combiner :=
          fun combiner same => sets ⟨combiner, same⟩
        have events : sharedStateEvents i w a =
            if w.copiesList a then [.listCopied] else [] := by
          cases a with
          | setCombiner combiner => exact absurd rfl (other combiner)
          | _ => simp [sharedStateEvents, running]
        have none_ : ownAssignments i w a = [] := by
          cases a with
          | setCombiner combiner => exact absurd rfl (other combiner)
          | _ => simp [ownAssignments, assignedCombiner, running]
        rw [events, none_, List.append_nil]
        exact watched.other stepped other running

/-! ### The combiner object and its value -/

theorem Sharing.combiner_kept (sharing : w.Sharing) (stepped : w.step a = some w')
    (unassigned : ownAssignments i w a = []) : CombinerKept w w' i := by
  intro s running progress
  have change := (step_effect stepped).2.change
  have below := sharing.readers .invocation s (stateOf_mem running)
  have state := change.heap.states below
  have still : w'.stateOf i = some s := (stateOf_kept change running).resolve_right progress
  refine ⟨still, by rw [state], ?_⟩
  rw [combinerOf, combinerOf, state]
  by_cases sets : ∃ combiner, a = .setCombiner combiner
  · obtain ⟨combiner, rfl⟩ := sets
    obtain ⟨impl, present, ⟨alone, rfl⟩ | ⟨_, rfl⟩⟩ := setCombiner_cases stepped
    · have current := shared_of_present present
      have differs := (ownAssignments_set running current).mp unassigned alone
      exact Function.update_of_ne (Ne.symm differs) _ _
    · exact Function.update_of_ne (Nat.ne_of_lt (sharing.heap.combiners s below)) _ _
  · have other : ∀ combiner, a ≠ .setCombiner combiner :=
      fun combiner same => sets ⟨combiner, same⟩
    rw [(change.heap.combiners other).1]

/-- An invocation that has ended does not come back. -/
theorem stateOf_ended {actions : List (Action σ)} (began : i < w.invocations.length)
    (ended : w.stateOf i = none) (ran : Runs.run World.step w actions = some w') :
    w'.stateOf i = none := by
  induction actions generalizing w with
  | nil => exact Option.some.inj ran ▸ ended
  | cons a rest ih =>
      obtain ⟨next, stepped, ranRest⟩ := Runs.run_cons ran
      have change := (step_effect stepped).2.change
      apply ih (Nat.lt_of_lt_of_le began change.joins) _ ranRest
      cases running : next.stateOf i with
      | none => rfl
      | some s =>
          rcases stateOf_origin change running with before | ⟨new, _⟩
          · rw [ended] at before
            cases before
          · exact absurd began (Nat.not_lt_of_le new)

theorem Sharing.combiner_kept_run {actions : List (Action σ)} (sharing : w.Sharing)
    (ran : Runs.run World.step w actions = some w')
    (unassigned : Runs.outputs World.step (ownAssignments i) w actions = []) :
    CombinerKept w w' i := by
  induction actions generalizing w with
  | nil =>
      cases Option.some.inj ran
      exact fun s running _ => ⟨running, rfl, rfl⟩
  | cons a rest ih =>
      obtain ⟨next, stepped, ranRest⟩ := Runs.run_cons ran
      simp only [Runs.outputs, stepped] at unassigned
      obtain ⟨here, later⟩ := List.append_eq_nil_iff.mp unassigned
      have change := (step_effect stepped).2.change
      intro s running progress
      have middle : next.stateOf i ≠ none := by
        intro ended
        exact progress (stateOf_ended (stateOf_below change running) ended ranRest)
      obtain ⟨still, object, value⟩ := sharing.combiner_kept stepped here s running middle
      obtain ⟨still', object', value'⟩ :=
        ih (sharing.step change) ranRest later s still progress
      exact ⟨still', object'.trans object, value'.trans value⟩

/-! ### Later invocations -/

/-- `_shared_state` and the invocations from the `n`-th on have this combiner. -/
structure Latest (combiner : σ.Combiner) (n : Nat) (w : World σ) : Prop where
  shared : ∀ s, w.shared = some s → w.combinerOf s = combiner
  started : ∀ i s, n ≤ i → w.stateOf i = some s → w.combinerOf s = combiner

theorem setCombiner_latest {combiner : σ.Combiner}
    (stepped : w.step (.setCombiner combiner) = some w') :
    Latest combiner w.invocations.length w' := by
  obtain ⟨impl, present, how⟩ := setCombiner_cases stepped
  have shared : ∀ s, w'.shared = some s → w'.combinerOf s = combiner := by
    rcases how with ⟨_, rfl⟩ | ⟨_, rfl⟩
    · intro s current
      have same : w.heap.impl.map SignalImpl.sharedState = some s := current
      rw [present] at same
      cases same
      simp [combinerOf, setHeap, Heap.assignCombiner]
    · intro s current
      cases current
      simp [combinerOf, setHeap, Heap.replaceCombiner]
  constructor
  · exact shared
  · intro i s young running
    rcases stateOf_origin (step_effect stepped).2.change running with before | ⟨_, current⟩
    · obtain ⟨inv, found, _⟩ := Option.bind_eq_some_iff.mp before
      exact absurd (List.getElem?_eq_some_iff.mp found).1 (Nat.not_lt_of_le young)
    · exact shared s current

theorem Latest.step {combiner : σ.Combiner} {n : Nat} (latest : Latest combiner n w)
    (sharing : w.Sharing) (other : ∀ c, a ≠ .setCombiner c) (stepped : w.step a = some w') :
    Latest combiner n w' := by
  have change := (step_effect stepped).2.change
  have values := (change.heap.combiners other).1
  have shared : ∀ s, w'.shared = some s → w'.combinerOf s = combiner := by
    intro s current
    obtain ⟨t, before, same, _⟩ := shared_step stepped other current
    rw [combinerOf, same, values]
    exact latest.shared t before
  constructor
  · exact shared
  · intro i s young running
    rcases stateOf_origin change running with before | ⟨_, current⟩
    · have state := change.heap.states (sharing.readers .invocation s (stateOf_mem before))
      rw [combinerOf, state, values]
      exact latest.started i s young before
    · exact shared s current

theorem Latest.run {combiner : σ.Combiner} {n : Nat} {final : World σ}
    {actions : List (Action σ)} (latest : Latest combiner n w) (sharing : w.Sharing)
    (others : ∀ c, Action.setCombiner c ∉ actions)
    (ran : Runs.run World.step w actions = some final) : Latest combiner n final := by
  induction actions generalizing w with
  | nil => exact Option.some.inj ran ▸ latest
  | cons a rest ih =>
      obtain ⟨next, stepped, ranRest⟩ := Runs.run_cons ran
      have change := (step_effect stepped).2.change
      have other : ∀ c, a ≠ .setCombiner c := fun c same =>
        others c (same ▸ List.mem_cons_self)
      exact ih (latest.step sharing other stepped) (sharing.step change)
        (fun c member => others c (List.mem_cons_of_mem a member)) ranRest

theorem Sharing.run {actions : List (Action σ)} (sharing : w.Sharing)
    (ran : Runs.run World.step w actions = some w') : w'.Sharing := by
  have keeps : ∀ (s : World σ) (a : Action σ) (next : World σ), Sharing s → True →
      s.step a = some next → Sharing next :=
    fun _ _ _ before _ stepped => Sharing.step before (step_effect stepped).2.change
  exact Runs.run_invariant keeps sharing (.of_forall fun _ _ _ => trivial) ran

theorem Sharing.takeEffect (sharing : w.Sharing) (actions : List (Action σ)) :
    CombinersTakeEffect w actions := by
  intro earlier combiner since later u u' _ others before ran i s young running
  obtain ⟨next, stepped, ranRest⟩ := Runs.run_cons ran
  have start := sharing.run before
  have latest := (setCombiner_latest stepped).run (start.step (step_effect stepped).2.change)
    others ranRest
  exact latest.started i s young running

/-- In every run and for every invocation: its combiner object is left alone exactly if no
call of `set_combiner` comes upon a copy of the list made since the invocation began.
Later invocations run with what was set, whatever happens. -/
theorem invocation_combiner_isolated {initial : σ.Combiner}
    {defaultCompare groupCompare : σ.Group → σ.Group → Bool} {owners : ObjectId → Nat}
    {actions : List (Action σ)}
    (ran : Runs.run World.step (World.construct initial defaultCompare groupCompare owners)
      actions = some w) :
    (∀ i, CombinerIsolated (World.construct initial defaultCompare groupCompare owners) actions i ↔
      Runs.Along SetsHarmlessly (Runs.outputs World.step (sharedStateEvents i)
        (World.construct initial defaultCompare groupCompare owners) actions)) ∧
    CombinersTakeEffect (World.construct initial defaultCompare groupCompare owners) actions := by
  have sharing := construct_sharing initial defaultCompare groupCompare owners
  refine ⟨fun i => ?_, sharing.takeEffect actions⟩
  have steps : ∀ (past : List SharedStateEvent) (assigned : List CombinerId) (s : World σ)
      (a : Action σ) (next : World σ), Watched i past assigned s → True → s.step a = some next →
      Watched i (past ++ sharedStateEvents i s a) (assigned ++ ownAssignments i s a) next :=
    fun past assigned s a next before _ stepped => before.step stepped
  have watched := Runs.run_history steps
    (construct_watched initial defaultCompare groupCompare owners)
    (.of_forall fun _ _ _ => trivial) ran
  simp only [List.nil_append] at watched
  constructor
  · intro isolated
    exact watched.exactly_.mp isolated.unassigned
  · intro harmless
    have unassigned := watched.exactly_.mpr harmless
    refine ⟨unassigned, ?_⟩
    intro earlier during later u u' parts before between
    subst parts
    rw [List.append_assoc, Runs.outputs_append before] at unassigned
    have rest := (List.append_eq_nil_iff.mp unassigned).2
    rw [Runs.outputs_append between] at rest
    exact (sharing.run before).combiner_kept_run between (List.append_eq_nil_iff.mp rest).1

end World

/-- The running slot sets a combiner, which meets a state that it does not have alone, and
calls the signal; then it returns. -/
def setCombinerAndCall : List (Action natSignal) :=
  [.setCombiner 1, .invoke, .section, .section, .slotReturns 0 5]

theorem callFirstSlot_combiner_isolated :
    ∃ w : World natSignal,
      Runs.run World.step natStart (callFirstSlot ++ setCombinerAndCall) = some w ∧
      World.CombinerIsolated natStart (callFirstSlot ++ setCombinerAndCall) 0 ∧
      w.stateOf 0 = some 0 ∧ w.combinerOf 0 = 0 ∧ w.stateOf 1 = some 1 ∧ w.combinerOf 1 = 1 ∧
      World.CombinersTakeEffect natStart (callFirstSlot ++ setCombinerAndCall) := by
  have ends : (Runs.run World.step natStart (callFirstSlot ++ setCombinerAndCall)).map
      (fun w => (w.stateOf 0, w.combinerOf 0, w.stateOf 1, w.combinerOf 1)) =
        some (some 0, 0, some 1, 1) := by
    decide +kernel
  have events : Runs.outputs World.step (World.sharedStateEvents 0) natStart
      (callFirstSlot ++ setCombinerAndCall) = [.combinerSet false] := by
    decide +kernel
  obtain ⟨w, ran, values⟩ := Option.map_eq_some_iff.mp ends
  obtain ⟨isolated, takeEffect⟩ := World.invocation_combiner_isolated ran
  have harmless : Runs.Along SetsHarmlessly (Runs.outputs World.step (World.sharedStateEvents 0)
      natStart (callFirstSlot ++ setCombinerAndCall)) := by
    rw [events]
    exact Runs.Along.nil.snoc fun impossible => by cases impossible
  have own := (isolated 0).mpr harmless
  obtain ⟨state, value, state', value'⟩ : w.stateOf 0 = some 0 ∧ w.combinerOf 0 = 0 ∧
      w.stateOf 1 = some 1 ∧ w.combinerOf 1 = 1 := by
    simpa only [Prod.mk.injEq] using values
  exact ⟨w, ran, own, state, value, state', value', takeEffect⟩

/-- The connect has copied the list, and the new state, which took the combiner along, is
unique when the combiner is set.  The combiner of the running invocation is assigned to. -/
theorem set_combiner_assigns_running :
    ∃ w w' : World natSignal, Runs.run World.step natStart callFirstSlot = some w ∧
      Runs.run World.step w connectAndSetCombiner = some w' ∧
      w.stateOf 0 = some 0 ∧ w'.stateOf 0 = some 0 ∧ w.combinerOf 0 = 0 ∧ w'.combinerOf 0 = 1 ∧
      ¬ World.CombinerIsolated natStart (callFirstSlot ++ connectAndSetCombiner) 0 := by
  refine ⟨_, _, rfl, rfl, rfl, rfl, rfl, rfl, ?_⟩
  intro isolated
  have assigned : Runs.outputs World.step (World.ownAssignments 0) natStart
      (callFirstSlot ++ connectAndSetCombiner) = [0] := by
    decide +kernel
  rw [isolated.unassigned] at assigned
  cases assigned

end Signals2
