/-
The garbage iterator and the sweeps.  As long as the signal is not destroyed, the
saved position of the cleanup refers to the current list, and a sweep from any
position of it comes to an end, with just the disconnected connections erased.
-/

import Signals2.CurrentList
import Signals2.Faults

namespace Signals2

open LinkedLists OrderedInsertion

variable {σ : SignalTemplate}

def Action.isSection : Action σ → Bool
  | .section => true
  | _ => false

theorem Action.isSection_iff {a : Action σ} : a.isSection = true ↔ a = .section := by
  cases a <;> simp [Action.isSection]

namespace World

variable {w w' : World σ} {a : Action σ} {compare : σ.Group → σ.Group → Bool}

/-- The signal is not destroyed; anything else may happen. -/
def SignalStays (_ : World σ) (a : Action σ) : Prop := a ≠ .destroy

/-! ### What every such run maintains -/

structure Maintained (compare : σ.Group → σ.Group → Bool) (w : World σ) : Prop where
  current : w.Current compare
  listed : ∀ b, Listed w.heap b → b < w.nextBody
  distinct : w.CurrentDistinct
  counted : w.Counted
  present : w.heap.impl ≠ none

theorem construct_maintained (combiner : σ.Combiner) (compare : σ.Group → σ.Group → Bool)
    (owners : ObjectId → Nat) :
    (World.construct combiner compare compare owners).Maintained compare where
  current := construct_current combiner compare owners
  listed b listed := by
    obtain ⟨l, member⟩ := listed
    cases member
  distinct impl present := by
    cases present
    exact List.nodup_nil
  counted := construct_counted combiner compare compare owners
  present gone := by cases gone

theorem Maintained.step (maintained : w.Maintained compare) (order : StrictWeak compare)
    (stays : SignalStays w a) (effect : Effect w a w') : w'.Maintained compare where
  current := maintained.current.step order maintained.listed effect
  listed := effect.listed_below maintained.listed
  distinct := maintained.distinct.step maintained.listed effect
  counted := maintained.counted.step effect
  present := effect.change.heap.present stays maintained.present

/-- Locking the mutex for a sweep from a position of the current list. -/
theorem Maintained.enter (maintained : w.Maintained compare) {it : Iterator} {i count : Nat}
    {grabTracked : Bool} {after : AfterCleanup σ}
    (valid : ∀ impl, w.heap.impl = some impl → (w.heap.connectionBodies impl).list.Valid it) :
    (w.enter (.cleanupConnections it i count grabTracked after)).Maintained compare where
  current :=
    { consistent := maintained.current.consistent
      saved := by
        intro still
        cases still
      running := by
        intro it' i' count' grabTracked' after' critical
        cases critical
        exact valid }
  listed := maintained.listed
  distinct := maintained.distinct
  counted := maintained.counted.congr rfl rfl rfl rfl
  present := maintained.present

/-! ### One sweep -/

/-- A call of `nolock_cleanup_connections_from`: the nodes before its first position
and from there on, its other arguments, and what follows it. -/
structure Sweep (σ : SignalTemplate) where
  before : List (Nat × BodyId)
  ahead : List (Nat × BodyId)
  count : Nat
  grabTracked : Bool
  after : AfterCleanup σ

def startSweep (w : World σ) (impl : SignalImpl) (sweep : Sweep σ) : World σ :=
  w.enter (.cleanupConnections ((w.heap.connectionBodies impl).list.iteratorTo sweep.ahead) 0
    sweep.count sweep.grabTracked sweep.after)

def stillConnected (w : World σ) (nodes : List (Nat × BodyId)) : List (Nat × BodyId) :=
  nodes.filter fun node => (w.bodies node.2).connected

/-- The sweep has gone over `examined` and has `rest` ahead.  It has erased those of
`examined` that are not connected, and tested nothing else for expiry. -/
structure Sweeping (compare : σ.Group → σ.Group → Bool) (sweep : Sweep σ) (start : World σ)
    (impl : SignalImpl) (examined rest : List (Nat × BodyId)) (w : World σ) : Prop where
  maintained : w.Maintained compare
  split : sweep.ahead = examined ++ rest
  apart : (sweep.ahead.map Prod.snd).Nodup
  budget : sweep.count = 0 ∨ examined.length ≤ sweep.count
  present : w.heap.impl = some impl
  nodes : (w.heap.connectionBodies impl).list.nodes =
    sweep.before ++ w.stillConnected examined ++ rest
  critical : w.critical = some (.cleanupConnections
    ((w.heap.connectionBodies impl).list.iteratorTo rest) examined.length sweep.count
    sweep.grabTracked sweep.after)
  untouched : ∀ b, b ∉ examined.map Prod.snd →
    (w.bodies b).connected = (start.bodies b).connected
  unchecked : sweep.grabTracked = false →
    ∀ b, (w.bodies b).connected = (start.bodies b).connected

/-- The loop of the sweep goes on. -/
def Sweep.Unfinished (sweep : Sweep σ) (examined rest : List (Nat × BodyId)) : Prop :=
  rest ≠ [] ∧ (sweep.count = 0 ∨ examined.length < sweep.count)

theorem Maintained.startSweep (maintained : w.Maintained compare) {impl : SignalImpl}
    (present : w.heap.impl = some impl) {sweep : Sweep σ}
    (nodes : (w.heap.connectionBodies impl).list.nodes = sweep.before ++ sweep.ahead) :
    Sweeping compare sweep w impl [] sweep.ahead (w.startSweep impl sweep) where
  maintained := by
    apply maintained.enter
    intro impl' present'
    have same : impl' = impl := Option.some.inj (present'.symm.trans present)
    subst same
    apply iteratorTo_valid
    intro node member
    rw [nodes]
    exact List.mem_append_right _ member
  split := rfl
  apart := by
    have distinct := maintained.distinct impl present
    rw [LinkedList.values, nodes, List.map_append] at distinct
    exact (List.nodup_append.mp distinct).2.1
  budget := .inr (Nat.zero_le _)
  present := present
  nodes := by
    change (w.heap.connectionBodies impl).list.nodes = _
    rw [nodes]
    simp [stillConnected]
  critical := rfl
  untouched _ _ := rfl
  unchecked _ _ := rfl

/-- While a client holds the mutex, the others leave the list and the connections alone. -/
theorem Effect.locked (effect : Effect w a w') {s : Section σ} (held : w.critical = some s)
    (outsider : a ≠ .section) (stays : SignalStays w a) (sound : w'.fault = none) :
    w'.critical = w.critical ∧ w'.heap = w.heap ∧
      ∀ b, (w'.bodies b).connected = (w.bodies b).connected := by
  have taken : w.critical ≠ none := by
    rw [held]
    exact Option.some_ne_none s
  cases effect with
  | sweepStart impl it count grabTracked after free => exact absurd free taken
  | copyAndSweep impl grabTracked after free => exact absurd free taken
  | assignCombiner combiner impl free => exact absurd free taken
  | replaceCombiner combiner impl free => exact absurd free taken
  | start impl free => exact absurd free taken
  | traverse impl kind free => exact absurd free taken
  | grabStart client b free => exact absurd free taken
  | disconnect b free => exact absurd free taken
  | throwExpired i inv b free => exact absurd free taken
  | walkDisconnect t tr b free => exact absurd free taken
  | reachEnd i inv free => exact absurd free taken
  | destroyCache i inv free => exact absurd free taken
  | containsStart t tr b weakPimpl pimpl free => exact absurd free taken
  | destroy impl present => exact absurd rfl stays
  | move i inv inv' found move => exact ⟨rfl, rfl, fun _ => rfl⟩
  | walk t tr tr' found walk => exact ⟨rfl, rfl, fun _ => rfl⟩
  | outside w' outside =>
      refine ⟨outside.critical, outside.heap, fun b => ?_⟩
      rw [outside.bodies b]
  | fault u f cause u_eq => cases sound
  | _ => exact absurd rfl outsider

theorem Sweeping.other {sweep : Sweep σ} {start : World σ} {impl : SignalImpl}
    {examined rest : List (Nat × BodyId)}
    (sweeping : Sweeping compare sweep start impl examined rest w) (order : StrictWeak compare)
    (effect : Effect w a w') (outsider : a ≠ .section) (stays : SignalStays w a)
    (sound : w'.fault = none) : Sweeping compare sweep start impl examined rest w' := by
  obtain ⟨critical, heap, connected⟩ := effect.locked sweeping.critical outsider stays sound
  have kept : w'.stillConnected examined = w.stillConnected examined := by
    simp only [stillConnected, connected]
  exact {
    maintained := sweeping.maintained.step order stays effect
    split := sweeping.split
    apart := sweeping.apart
    budget := sweeping.budget
    present := by
      rw [heap]
      exact sweeping.present
    nodes := by
      rw [heap, kept]
      exact sweeping.nodes
    critical := by
      rw [critical, heap]
      exact sweeping.critical
    untouched := by
      intro b outside
      rw [connected b]
      exact sweeping.untouched b outside
    unchecked := by
      intro plain b
      rw [connected b]
      exact sweeping.unchecked plain b }

/-! ### One round -/

theorem step_sweeping (sound : w.fault = none) {it : Iterator} {i count : Nat}
    {grabTracked : Bool} {after : AfterCleanup σ}
    (critical : w.critical = some (.cleanupConnections it i count grabTracked after)) :
    w.step .section = some (w.cleanupStep it i count grabTracked after) := by
  simp only [step, sound, Option.isSome_none, Bool.false_eq_true, if_false, sectionStep, critical]

theorem checkExpired_apart (grabTracked : Bool) {b other : BodyId} (apart : other ≠ b) :
    (w.checkExpired grabTracked b).bodies other = w.bodies other := by
  unfold checkExpired disconnectExpiredSlot
  split
  · split
    · rfl
    · split
      · exact BodyStore.nolockDisconnect_apart apart
      · rfl
  · rfl

theorem checkExpired_heap (w : World σ) (grabTracked : Bool) (b : BodyId) :
    (w.checkExpired grabTracked b).heap = w.heap := by
  obtain ⟨store, same⟩ := checkExpired_store w grabTracked b
  rw [same]

theorem checkExpired_critical (w : World σ) (grabTracked : Bool) (b : BodyId) :
    (w.checkExpired grabTracked b).critical = w.critical := by
  obtain ⟨store, same⟩ := checkExpired_store w grabTracked b
  rw [same]

theorem checkExpired_owned (w : World σ) (grabTracked : Bool) (b : BodyId) :
    (w.checkExpired grabTracked b).owned = w.owned := by
  obtain ⟨store, same⟩ := checkExpired_store w grabTracked b
  rw [same]
  rfl

theorem Maintained.checkExpired (maintained : w.Maintained compare) (sound : w.fault = none)
    (grabTracked : Bool) (b : BodyId) : (w.checkExpired grabTracked b).fault = none := by
  have counted := (maintained.counted.checkExpired grabTracked b).sound
  rcases checkExpired_fault (w := w) grabTracked b with same | inc | dec
  · rw [same]
    exact sound
  · exact absurd inc counted.1
  · exact absurd dec counted.2

/-- A round examines the first node ahead: it checks its body for expiry when asked to,
erases the node if its body is not connected then, and steps over it otherwise. -/
private theorem Sweeping.examine {sweep : Sweep σ} {start : World σ} {impl : SignalImpl}
    {examined rest : List (Nat × BodyId)} {node : Nat × BodyId}
    (sweeping : Sweeping compare sweep start impl examined (node :: rest) w)
    (order : StrictWeak compare) (sound : w.fault = none)
    (more : sweep.count = 0 ∨ examined.length < sweep.count) :
    ∃ next, w.step .section = some next ∧ next.fault = none ∧ next.heap.impl = some impl ∧
      next.bodies = (w.checkExpired sweep.grabTracked node.2).bodies ∧
      (next.heap.connectionBodies impl).list.nodes =
        sweep.before ++ w.stillConnected examined ++
          ((w.checkExpired sweep.grabTracked node.2).stillConnected [node] ++ rest) ∧
      next.critical = some (.cleanupConnections
        ((next.heap.connectionBodies impl).list.iteratorTo rest) (examined.length + 1)
        sweep.count sweep.grabTracked sweep.after) := by
  have nodes := sweeping.nodes
  have here := value?_iteratorTo nodes
  have after := next_iteratorTo nodes
  have clean := sweeping.maintained.checkExpired sound sweep.grabTracked node.2
  have inside : (w.heap.connectionBodies impl).list.iteratorTo (node :: rest) ≠
      (w.heap.connectionBodies impl).past := by
    intro same
    cases congrArg Iterator.node same
  have heap := checkExpired_heap w sweep.grabTracked node.2
  have stepped := step_sweeping sound sweeping.critical
  simp only [cleanupStep, sweeping.present, inside, ne_eq, not_false_eq_true, more, and_self,
    if_true, here] at stepped
  cases connected : ((w.checkExpired sweep.grabTracked node.2).bodies node.2).connected with
  | true =>
      rw [if_neg (by simp [connected])] at stepped
      refine ⟨_, stepped, clean, ?_, rfl, ?_, ?_⟩
      · change (w.checkExpired sweep.grabTracked node.2).heap.impl = _
        rw [heap]
        exact sweeping.present
      · have kept : (w.checkExpired sweep.grabTracked node.2).stillConnected [node] = [node] := by
          simp [stillConnected, connected]
        change ((w.checkExpired sweep.grabTracked node.2).heap.connectionBodies impl).list.nodes = _
        rw [kept, heap]
        exact nodes
      · rw [after]
        simp only [enter, heap]
  | false =>
      rw [if_pos connected] at stepped
      have key : ((w.checkExpired sweep.grabTracked node.2).bodies node.2).groupKey =
          w.keyOf node.2 := ((checkExpired_ages sweep.grabTracked node.2).bodies node.2).groupKey
      obtain ⟨list, erased, _, shorter⟩ :=
        (sweeping.maintained.current.consistent impl sweeping.present).erase order here
      simp only [key, erased] at stepped
      refine ⟨_, stepped, clean, sweeping.present, rfl, ?_, ?_⟩
      · have gone : (w.checkExpired sweep.grabTracked node.2).stillConnected [node] = [] := by
          simp [stillConnected, connected]
        rw [gone]
        simp only [enter, setHeap, Heap.connectionBodies, Heap.setConnectionBodies,
          Function.update_self, shorter]
        exact erase_nodes nodes
      · rw [after]
        simp only [enter, setHeap, Heap.connectionBodies, Heap.setConnectionBodies,
          Function.update_self, shorter]
        rfl

theorem Sweeping.round {sweep : Sweep σ} {start : World σ} {impl : SignalImpl}
    {examined rest : List (Nat × BodyId)} {node : Nat × BodyId}
    (sweeping : Sweeping compare sweep start impl examined (node :: rest) w)
    (order : StrictWeak compare) (sound : w.fault = none)
    (more : sweep.count = 0 ∨ examined.length < sweep.count) :
    ∃ next, w.step .section = some next ∧ next.fault = none ∧
      Sweeping compare sweep start impl (examined ++ [node]) rest next := by
  obtain ⟨next, stepped, clean, present, bodies, nodes, critical⟩ :=
    sweeping.examine order sound more
  have fresh : node.2 ∉ examined.map Prod.snd := by
    have apart := sweeping.apart
    rw [sweeping.split, List.map_append, List.map_cons] at apart
    intro member
    exact (List.nodup_append.mp apart).2.2 node.2 member node.2 List.mem_cons_self rfl
  have others : ∀ b, b ≠ node.2 → (next.bodies b).connected = (w.bodies b).connected := by
    intro b different
    rw [bodies]
    rw [checkExpired_apart sweep.grabTracked different]
  have earlier : next.stillConnected examined = w.stillConnected examined := by
    apply List.filter_congr
    intro other member
    apply others
    intro same
    exact fresh (same ▸ List.mem_map_of_mem member)
  refine ⟨next, stepped, clean, ?_⟩
  exact {
    maintained := sweeping.maintained.step order (by simp [SignalStays]) (step_effect stepped).2
    split := by
      rw [sweeping.split, List.append_assoc]
      rfl
    apart := sweeping.apart
    budget := by
      rw [List.length_append, List.length_singleton]
      omega
    present := present
    nodes := by
      have both : next.stillConnected (examined ++ [node]) =
          w.stillConnected examined ++
            (w.checkExpired sweep.grabTracked node.2).stillConnected [node] := by
        rw [← earlier]
        simp only [stillConnected, List.filter_append, bodies]
      rw [nodes, both]
      simp only [List.append_assoc]
    critical := by
      rw [List.length_append, List.length_singleton]
      exact critical
    untouched := by
      intro b outside
      rw [List.map_append, List.mem_append, not_or] at outside
      have different : b ≠ node.2 := by
        intro same
        apply outside.2
        simp [same]
      rw [others b different]
      exact sweeping.untouched b outside.1
    unchecked := by
      intro plain b
      rw [bodies, plain]
      exact sweeping.unchecked plain b }

/-- When the list or the budget is used up, the position is saved. -/
theorem Sweeping.stop {sweep : Sweep σ} {start : World σ} {impl : SignalImpl}
    {examined rest : List (Nat × BodyId)}
    (sweeping : Sweeping compare sweep start impl examined rest w) (sound : w.fault = none)
    (finished : ¬ sweep.Unfinished examined rest) :
    w.step .section = some (w.finishCleanup impl
      ((w.heap.connectionBodies impl).list.iteratorTo rest) sweep.after) := by
  have done : ¬ ((w.heap.connectionBodies impl).list.iteratorTo rest ≠
      (w.heap.connectionBodies impl).past ∧
      (sweep.count = 0 ∨ examined.length < sweep.count)) := by
    rintro ⟨inside, more⟩
    apply finished
    constructor
    · intro none
      rw [none] at inside
      exact inside rfl
    · exact more
  rw [step_sweeping sound sweeping.critical]
  simp only [cleanupStep, sweeping.present, done, if_false]

theorem Sweeping.all_connected {sweep : Sweep σ} {start : World σ} {impl : SignalImpl}
    {examined rest : List (Nat × BodyId)}
    (sweeping : Sweeping compare sweep start impl examined rest w)
    (finished : ¬ sweep.Unfinished examined rest) (unlimited : sweep.count = 0)
    (whole : sweep.before = []) :
    ∀ b ∈ (w.heap.connectionBodies impl).list.values, (w.bodies b).connected = true := by
  have nothing : rest = [] := by
    by_contra more
    exact finished ⟨more, .inl unlimited⟩
  intro b member
  rw [LinkedList.values, sweeping.nodes, whole, nothing, List.nil_append, List.append_nil] at member
  obtain ⟨node, kept, rfl⟩ := List.mem_map.mp member
  exact (List.mem_filter.mp kept).2

/-! ### Whole sweeps -/

/-- What the steps `later` from `w` on, where a sweep has made `rounds` rounds, have
come to: each step of the client that holds the mutex was a round and the next one
will not fail, or one of them has found nothing more to do and saved the position. -/
inductive SweepOutcome (compare : σ.Group → σ.Group → Bool) (sweep : Sweep σ) (start : World σ)
    (impl : SignalImpl) (w : World σ) (rounds : Nat) (later : List (Action σ)) (w' : World σ) :
    Prop
  | underway (examined rest : List (Nat × BodyId))
      (sweeping : Sweeping compare sweep start impl examined rest w')
      (counted : examined.length = rounds + later.countP Action.isSection)
      (progress : ∃ next, w'.step .section = some next ∧ next.fault = none)
  | ended (first last : List (Action σ)) (middle : World σ) (examined rest : List (Nat × BodyId))
      (split : later = first ++ .section :: last)
      (ran : Runs.run World.step w first = some middle)
      (sweeping : Sweeping compare sweep start impl examined rest middle)
      (finished : rest = [] ∨ sweep.count ≠ 0 ∧ examined.length = sweep.count)
      (saved : middle.step .section = some (middle.finishCleanup impl
        ((middle.heap.connectionBodies impl).list.iteratorTo rest) sweep.after))
      (allConnected : sweep.count = 0 → sweep.before = [] →
        ∀ b ∈ (middle.heap.connectionBodies impl).list.values,
          (middle.bodies b).connected = true)

theorem sound_of_run {final : World σ} {actions : List (Action σ)}
    (ran : Runs.run World.step w actions = some final) (sound : final.fault = none) :
    w.fault = none := by
  cases actions with
  | nil =>
      have same : w = final := Option.some.inj ran
      rw [same]
      exact sound
  | cons action rest =>
      obtain ⟨next, stepped, _⟩ := Runs.run_cons ran
      exact (step_effect stepped).1

theorem Sweeping.progress {sweep : Sweep σ} {start : World σ} {impl : SignalImpl}
    {examined rest : List (Nat × BodyId)}
    (sweeping : Sweeping compare sweep start impl examined rest w) (order : StrictWeak compare)
    (sound : w.fault = none) : ∃ next, w.step .section = some next ∧ next.fault = none := by
  by_cases unfinished : sweep.Unfinished examined rest
  · cases rest with
    | nil => exact absurd rfl unfinished.1
    | cons node rest =>
        obtain ⟨next, stepped, clean, _⟩ := sweeping.round order sound unfinished.2
        exact ⟨next, stepped, clean⟩
  · refine ⟨_, sweeping.stop sound unfinished, ?_⟩
    rw [finishCleanup_fault]
    exact sound

theorem Sweeping.used_up {sweep : Sweep σ} {start : World σ} {impl : SignalImpl}
    {examined rest : List (Nat × BodyId)}
    (sweeping : Sweeping compare sweep start impl examined rest w)
    (finished : ¬ sweep.Unfinished examined rest) :
    rest = [] ∨ sweep.count ≠ 0 ∧ examined.length = sweep.count := by
  by_cases nothing : rest = []
  · exact .inl nothing
  · right
    have budget := sweeping.budget
    have spent : ¬ (sweep.count = 0 ∨ examined.length < sweep.count) :=
      fun more => finished ⟨nothing, more⟩
    omega

private theorem SweepOutcome.cons {sweep : Sweep σ} {start next : World σ} {impl : SignalImpl}
    {rounds rounds' : Nat} {more : List (Action σ)} (stepped : w.step a = some next)
    (outcome : SweepOutcome compare sweep start impl next rounds' more w')
    (counted : rounds' = rounds + if a.isSection then 1 else 0) :
    SweepOutcome compare sweep start impl w rounds (a :: more) w' := by
  cases outcome with
  | underway examined rest sweeping length progress =>
      refine .underway examined rest sweeping ?_ progress
      rw [List.countP_cons]
      omega
  | ended first last middle examined rest split ran sweeping finished saved allConnected =>
      refine .ended (a :: first) last middle examined rest ?_ ?_ sweeping finished saved
        allConnected
      · rw [split]
        rfl
      · simp only [Runs.run, stepped, ran]

theorem Sweeping.run {sweep : Sweep σ} {start : World σ} {impl : SignalImpl}
    {later : List (Action σ)} (order : StrictWeak compare) (sound : w'.fault = none)
    {examined rest : List (Nat × BodyId)}
    (sweeping : Sweeping compare sweep start impl examined rest w)
    (guarded : Runs.Guarded World.step SignalStays w later)
    (ran : Runs.run World.step w later = some w') :
    SweepOutcome compare sweep start impl w examined.length later w' := by
  induction later generalizing w examined rest with
  | nil =>
      have same : w = w' := Option.some.inj ran
      subst same
      exact .underway examined rest sweeping rfl (sweeping.progress order sound)
  | cons action more ih =>
      obtain ⟨next, stepped, ranMore⟩ := Runs.run_cons ran
      obtain ⟨well, effect⟩ := step_effect stepped
      have onwards := guarded.2 next stepped
      by_cases mine : action = .section
      · subst mine
        by_cases unfinished : sweep.Unfinished examined rest
        · obtain ⟨inside, budget⟩ := unfinished
          cases rest with
          | nil => exact absurd rfl inside
          | cons node rest =>
              obtain ⟨next', stepped', _, standing⟩ := sweeping.round order well budget
              have same : next' = next := Option.some.inj (stepped'.symm.trans stepped)
              subst same
              apply (ih standing onwards ranMore).cons stepped
              rw [List.length_append, List.length_singleton]
              rfl
        · exact .ended [] more w examined rest rfl rfl sweeping (sweeping.used_up unfinished)
            (sweeping.stop well unfinished) (sweeping.all_connected unfinished)
      · have standing := sweeping.other order effect mine guarded.1 (sound_of_run ranMore sound)
        apply (ih standing onwards ranMore).cons stepped
        rw [if_neg (fun isSection => mine (Action.isSection_iff.mp isSection)), Nat.add_zero]

private theorem Sweeping.last {sweep : Sweep σ} {start : World σ} {impl : SignalImpl}
    {examined rest : List (Nat × BodyId)}
    (sweeping : Sweeping compare sweep start impl examined rest w) (sound : w.fault = none)
    (finished : ¬ sweep.Unfinished examined rest) :
    ∃ final, w.step .section = some final ∧ final.critical = none ∧ final.fault = none := by
  refine ⟨_, sweeping.stop sound finished, finishCleanup_critical w impl _ sweep.after, ?_⟩
  rw [finishCleanup_fault]
  exact sound

/-- Left to itself, the sweep comes to its end within one round a node and one more. -/
theorem Sweeping.terminates {sweep : Sweep σ} {start : World σ} {impl : SignalImpl}
    (order : StrictWeak compare) {examined rest : List (Nat × BodyId)}
    (sweeping : Sweeping compare sweep start impl examined rest w) (sound : w.fault = none) :
    ∃ rounds final, rounds ≤ rest.length + 1 ∧
      Runs.run World.step w (List.replicate rounds .section) = some final ∧
      final.critical = none ∧ final.fault = none := by
  induction rest generalizing w examined with
  | nil =>
      have finished : ¬ sweep.Unfinished examined [] := fun unfinished => unfinished.1 rfl
      obtain ⟨final, stepped, ends⟩ := sweeping.last sound finished
      refine ⟨1, final, Nat.le_refl _, ?_, ends⟩
      simp only [List.replicate, Runs.run, stepped]
  | cons node rest ih =>
      by_cases unfinished : sweep.Unfinished examined (node :: rest)
      · obtain ⟨next, stepped, clean, standing⟩ := sweeping.round order sound unfinished.2
        obtain ⟨rounds, final, bound, ran, ends⟩ := ih standing clean
        refine ⟨rounds + 1, final, ?_, ?_, ends⟩
        · rw [List.length_cons]
          omega
        · simp only [List.replicate_succ, Runs.run, stepped, ran]
      · obtain ⟨final, stepped, ends⟩ := sweeping.last sound unfinished
        refine ⟨1, final, ?_, ?_, ends⟩
        · omega
        · simp only [List.replicate, Runs.run, stepped]

/-! ### The garbage iterator -/

/-- The saved position is past the end or at a node of the current list unless a sweep is
on its way, and every sweep from any position of that list, with any arguments, comes to
an end as it should. -/
def Swept (compare : σ.Group → σ.Group → Bool) (w : World σ) : Prop :=
  ∃ impl, w.heap.impl = some impl ∧
    (w.sweeping = false →
      (w.heap.connectionBodies impl).list.Valid impl.garbageCollectorIt) ∧
    ∀ sweep : Sweep σ,
      (w.heap.connectionBodies impl).list.nodes = sweep.before ++ sweep.ahead →
      w.critical = none → w.fault = none →
      (∃ rounds final, rounds ≤ sweep.ahead.length + 1 ∧
        Runs.run World.step (w.startSweep impl sweep) (List.replicate rounds .section) =
          some final ∧ final.critical = none ∧ final.fault = none) ∧
      ∀ (later : List (Action σ)) (w' : World σ),
        Runs.Guarded World.step SignalStays (w.startSweep impl sweep) later →
        Runs.run World.step (w.startSweep impl sweep) later = some w' → w'.fault = none →
        SweepOutcome compare sweep w impl (w.startSweep impl sweep) 0 later w'

theorem Maintained.swept (maintained : w.Maintained compare) (order : StrictWeak compare) :
    w.Swept compare := by
  obtain ⟨impl, present⟩ := Option.ne_none_iff_exists'.mp maintained.present
  refine ⟨impl, present, fun still => maintained.current.saved still impl present, ?_⟩
  intro sweep nodes free sound
  have sweeping := maintained.startSweep present nodes
  constructor
  · exact sweeping.terminates order sound
  · intro later w' stays ranLater clean
    exact sweeping.run order clean stays ranLater

theorem garbage_collector_runs (order : StrictWeak compare) {combiner : σ.Combiner}
    {owners : ObjectId → Nat} {actions : List (Action σ)}
    (guarded : Runs.Guarded World.step SignalStays
      (World.construct combiner compare compare owners) actions)
    (ran : Runs.run World.step (World.construct combiner compare compare owners) actions =
      some w) : w.Swept compare := by
  have maintained : w.Maintained compare :=
    Runs.run_invariant
      (fun _ _ _ holds stays stepped => holds.step order stays (step_effect stepped).2)
      (construct_maintained combiner compare owners) guarded ran
  exact maintained.swept order

end World

/-! ### A run -/

/-- Two connections, the first one disconnected, and a call in progress. -/
def disconnectAndCall : List (Action natSignal) :=
  [connectBack 10, .section, connectBack 11, .section, .section, .disconnect 0,
    connectBack 12, .section, .section, .section, .invoke, .section, .section, .lockNext 0,
    .section]

theorem disconnectAndCall_swept :
    ∃ w, Runs.run World.step natStart disconnectAndCall = some w ∧
      w.Swept fun a b : Nat => decide (a < b) := by
  have ends : (Runs.run World.step natStart disconnectAndCall).isSome := by decide +kernel
  obtain ⟨w, ran⟩ := Option.isSome_iff_exists.mp ends
  refine ⟨w, ran, World.garbage_collector_runs natLess_strictWeak (.of_forall ?_) ran⟩
  intro a member s same
  subst same
  simp [disconnectAndCall, connectBack] at member

end Signals2
