/-
Which slots an invocation calls.  While nothing comes between the steps of a
critical section, what a search finds is what is true when the iterator reaches
the connection, so the calls are those of the snapshot's connections that can be
called at that moment.
-/

import Signals2.CallHistory
import Signals2.Orderly

namespace Signals2

open LinkedLists OrderedInsertion

variable {σ : SignalTemplate}

namespace World

variable {w w' : World σ} {a : Action σ} {i : InvocationId}

/-- The connection is connected, has no expired tracked object and no live blocker. -/
def callable (w : World σ) (b : BodyId) : Bool :=
  (w.bodies b).connected && !w.slotExpired b && !w.blocked b

/-- The iterator reaches a connection when its search locks the mutex there. -/
def reachEvents (i : InvocationId) (w : World σ) (a : Action σ) : List (BodyId × Bool) :=
  match w.step a with
  | none => []
  | some w' =>
      match w.critical, w'.critical with
      | none, some (.grabTrackedObjects (.iterator j) b _ _) =>
          if j = i then [(b, w.callable b)] else []
      | _, _ => []

/-- Nothing comes between the steps of a critical section, as in a single thread. -/
def Uninterrupted (w : World σ) (a : Action σ) : Prop := w.critical ≠ none → a = .section

/-! ### A search decides what was true when it began -/

/-- The answer that a search which still has `todo` to promote is going to give. -/
def foreseen (w : World σ) (b : BodyId) (todo : List VoidWeakPtr) : Bool :=
  (w.bodies b).connected && !todo.any w.expired && !w.blocked b

theorem callable_foreseen (w : World σ) (b : BodyId) :
    w.callable b = w.foreseen b (w.bodies b).trackedObjects := rfl

/-- What has been reached has been decided, but for the connection that a search in
progress stands on. -/
def Reached (i : InvocationId) (events : List CallEvent) (reached : List (BodyId × Bool))
    (w : World σ) : Prop :=
  match w.critical with
  | some (.grabTrackedObjects (.iterator j) b todo locked) =>
      if j = i then
        reached = decisions events ++ [(b, w.foreseen b todo)] ∧
          (locked ≠ none → ∀ p rest, todo = p :: rest → w.expired p = false)
      else reached = decisions events
  | _ => reached = decisions events

theorem Reached.searching {events : List CallEvent} {reached : List (BodyId × Bool)} {b : BodyId}
    {todo : List VoidWeakPtr} {locked : Option (Option ObjectId)}
    (known : Reached i events reached w)
    (critical : w.critical = some (.grabTrackedObjects (.iterator i) b todo locked)) :
    reached = decisions events ++ [(b, w.foreseen b todo)] ∧
      (locked ≠ none → ∀ p rest, todo = p :: rest → w.expired p = false) := by
  simpa only [Reached, critical, if_true] using known

theorem reached_of_idle {events : List CallEvent} {reached : List (BodyId × Bool)}
    (idle : ∀ b todo locked,
      w.critical ≠ some (.grabTrackedObjects (.iterator i) b todo locked)) :
    Reached i events reached w ↔ reached = decisions events := by
  unfold Reached
  split
  · rename_i j b todo locked critical
    split
    · rename_i same
      subst same
      exact absurd critical (idle b todo locked)
    · exact Iff.rfl
  · exact Iff.rfl

private theorem decisions_append (first second : List CallEvent) :
    decisions (first ++ second) = decisions first ++ decisions second :=
  List.filterMap_append

private theorem decisions_seen : decisions (seen i w w') = decisions (decideEvents i w w') := by
  have started : decisions (startEvents i w w') = [] := by
    unfold startEvents
    split
    · rename_i inv found found'
      cases inv.localState <;> rfl
    · rfl
  have called : decisions (startedCalls i w w') = [] := by
    unfold startedCalls
    split
    · rename_i inv inv' found found'
      split
      · cases w.bodyAt inv.localState inv.iter <;> rfl
      · rfl
    · rfl
  rw [seen, decisions_append, decisions_append, started, called, List.append_nil, List.nil_append]

/-- A search starts with everything still to be promoted. -/
theorem Effect.starts_search (effect : Effect w a w') {b : BodyId} {todo : List VoidWeakPtr}
    {locked : Option (Option ObjectId)}
    (idle : ∀ b todo locked,
      w.critical ≠ some (.grabTrackedObjects (.iterator i) b todo locked))
    (searching : w'.critical = some (.grabTrackedObjects (.iterator i) b todo locked)) :
    w.critical = none ∧ w' = w.enterGrab (.iterator i) b ∧
      todo = (w.bodies b).trackedObjects ∧ locked = none := by
  have impossible : w'.critical = w.critical →
      w.critical = none ∧ w' = w.enterGrab (.iterator i) b ∧
        todo = (w.bodies b).trackedObjects ∧ locked = none :=
    fun same => absurd (same.symm.trans searching) (idle b todo locked)
  cases effect with
  | grabStart client other free ready =>
      cases searching
      exact ⟨free, rfl, rfl, rfl⟩
  | promote client other p rest critical alive =>
      cases searching
      exact absurd critical (idle _ _ _)
  | keep client other p rest locked' critical =>
      cases searching
      exact absurd critical (idle _ _ _)
  | sweepEnd it k count grabTracked after impl critical present done =>
      unfold finishCleanup at searching
      cases after with
      | connect arguments => cases searching
      | invoke => cases searching
      | forceCleanup j =>
          dsimp only at searching
          split at searching <;> cases searching
  | assignCombiner combiner impl free present unique => exact impossible rfl
  | replaceCombiner combiner impl free present shared => exact impossible rfl
  | start impl free present shared => exact impossible rfl
  | traverse impl kind free present => exact impossible rfl
  | destroy impl present => exact impossible rfl
  | move j inv inv' found move => exact impossible rfl
  | walk t tr tr' found walk => exact impossible rfl
  | outside w' outside => exact impossible outside.critical
  | fault u f cause u_eq =>
      rcases u_eq with rfl | ⟨grabTracked, other, rfl⟩
      · exact impossible rfl
      · refine impossible ?_
        obtain ⟨store, same⟩ := checkExpired_store w grabTracked other
        rw [same]
        rfl
  | _ => cases searching

/-! ### Nothing changes hands during a search -/

private theorem promote_owned {client : GrabClient} {b : BodyId} {p : VoidWeakPtr}
    {rest : List VoidWeakPtr}
    (critical : w.critical = some (.grabTrackedObjects client b (p :: rest) none)) (o : ObjectId) :
    (w.enter (.grabTrackedObjects client b (p :: rest) (some (w.lockWeakPtr p)))).owned o =
      w.owned o := by
  have before : w.lockedObject = none := by simp only [lockedObject, critical]
  have after : (w.enter (.grabTrackedObjects client b (p :: rest)
      (some (w.lockWeakPtr p)))).lockedObject = w.lockWeakPtr p := rfl
  rw [Bool.eq_iff_iff]
  constructor
  · intro owned
    rcases owned_iff.mp owned with owner | tracked | locked
    · exact owned_iff.mpr (.inl owner)
    · exact owned_iff.mpr (.inr (.inl tracked))
    · exact owned_of_lockWeakPtr (after.symm.trans locked)
  · intro owned
    rcases owned_iff.mp owned with owner | tracked | locked
    · exact owned_iff.mpr (.inl owner)
    · exact owned_iff.mpr (.inr (.inl tracked))
    · rw [before] at locked
      cases locked

private theorem keep_owned {b : BodyId} {p : VoidWeakPtr} {rest : List VoidWeakPtr}
    {locked : Option ObjectId} {inv : Invocation σ}
    (critical : w.critical =
      some (.grabTrackedObjects (.iterator i) b (p :: rest) (some locked)))
    (found : w.invocations[i]? = some inv) (o : ObjectId) :
    ((w.setInvocation i { inv with trackedPtrs := inv.trackedPtrs ++ [locked] }).enter
      (.grabTrackedObjects (.iterator i) b rest none)).owned o = w.owned o := by
  have before : w.lockedObject = locked := by simp only [lockedObject, critical]
  have bound := (List.getElem?_eq_some_iff.mp found).1
  have here : { inv with trackedPtrs := inv.trackedPtrs ++ [locked] } ∈
      w.invocations.set i { inv with trackedPtrs := inv.trackedPtrs ++ [locked] } :=
    List.mem_set bound _
  rw [Bool.eq_iff_iff]
  constructor
  · intro owned
    rcases owned_iff.mp owned with owner | ⟨other, member, held⟩ | held
    · exact owned_iff.mpr (.inl owner)
    · rcases List.mem_or_eq_of_mem_set member with old | rfl
      · exact owned_of_tracked old held
      · rcases List.mem_append.mp held with old | new
        · exact owned_of_tracked (List.mem_of_getElem? found) old
        · cases List.mem_singleton.mp new
          exact owned_iff.mpr (.inr (.inr before))
    · cases held
  · intro owned
    rcases owned_iff.mp owned with owner | ⟨other, member, held⟩ | held
    · exact owned_iff.mpr (.inl owner)
    · obtain ⟨k, there⟩ := List.getElem?_of_mem member
      by_cases same : i = k
      · subst same
        cases found.symm.trans there
        exact owned_of_tracked here (List.mem_append_left _ held)
      · have still : (w.invocations.set i
            { inv with trackedPtrs := inv.trackedPtrs ++ [locked] })[k]? = some other := by
          rw [List.getElem?_set_ne same]
          exact there
        exact owned_of_tracked (List.mem_of_getElem? still) held
    · cases before.symm.trans held
      exact owned_of_tracked here (List.mem_append_right _ List.mem_cons_self)

private theorem foreseen_congr {b : BodyId} (todo : List VoidWeakPtr)
    (owned : ∀ o, w'.owned o = w.owned o) (bodies : w'.bodies = w.bodies)
    (blocks : w'.blocks = w.blocks) : w'.foreseen b todo = w.foreseen b todo := by
  have expired : w'.expired = w.expired := funext fun p => by simp only [World.expired, owned]
  simp only [foreseen, expired, bodies, blocked, blockerAlive, blocks]

/-- What the search finds out is what it foresaw. -/
private theorem Ended.foreseen {b : BodyId} {todo : List VoidWeakPtr}
    {locked : Option (Option ObjectId)} {u : World σ} (ended : Ended w b todo locked u) :
    (todo.isEmpty && !w.nolockNograbBlocked b) = w.foreseen b todo := by
  cases ended with
  | grabbed locked =>
      cases connected : (w.bodies b).connected <;>
        simp [World.foreseen, nolockNograbBlocked, connected]
  | expired p rest expired => simp [World.foreseen, expired]

/-- A step of the search itself. -/
private theorem Reached.search {events : List CallEvent} {reached : List (BodyId × Bool)}
    {b : BodyId} {todo : List VoidWeakPtr} {locked : Option (Option ObjectId)}
    (known : Reached i events reached w) (placed : w.SectionPlaced)
    (critical : w.critical = some (.grabTrackedObjects (.iterator i) b todo locked))
    (stepped : w.step .section = some w') :
    Reached i (events ++ seen i w w') reached w' := by
  obtain ⟨reached_eq, alive⟩ := known.searching critical
  obtain ⟨inv, found, _⟩ : ∃ inv, w.invocations[i]? = some inv ∧ inv.phase = .searching ∧
      inv.iter.node ≠ none ∧ w.bodyAt inv.localState inv.iter = some b := by
    simpa only [SectionPlaced, critical] using placed
  have effect := (step_effect stepped).2
  have taken : w' = w.grabStep (.iterator i) b todo locked := by
    have sound := (step_effect stepped).1
    simpa only [World.step, sound, sectionStep, critical, Option.isSome_none, Bool.false_eq_true,
      if_false, Option.some.injEq, eq_comm] using stepped
  -- a step that goes on searching shows nothing
  have goes_on : ∀ todo' locked', w'.critical =
      some (.grabTrackedObjects (.iterator i) b todo' locked') →
      (∀ o, w'.owned o = w.owned o) → w'.bodies = w.bodies → w'.blocks = w.blocks →
      w.foreseen b todo' = w.foreseen b todo →
      (locked' ≠ none → ∀ p rest, todo' = p :: rest → w.expired p = false) →
      Reached i (events ++ seen i w w') reached w' := by
    intro todo' locked' critical' owned bodies blocks same alive'
    have none : decisions (events ++ seen i w w') = decisions events := by
      rw [decisions_append, decisions_seen, decideEvents_nil fun _ _ _ _ => by simp [critical']]
      exact List.append_nil _
    simp only [Reached, critical', if_true, none]
    refine ⟨?_, fun promoted p rest shape => ?_⟩
    · rw [reached_eq, foreseen_congr todo' owned bodies blocks, same]
    · rw [World.expired, owned]
      exact alive' promoted p rest shape
  have ends : ∀ u, Ended w b todo locked u → w' = u.finishGrab (.iterator i) b →
      Reached i (events ++ seen i w w') reached w' := by
    intro u ended result
    have freed : w'.critical = none := by
      obtain ⟨store, rfl⟩ := ended.store
      rw [result]
      simp only [finishGrab, found]
      split <;> rfl
    have decided : decideEvents i w w' = [.decide b (w.foreseen b todo)] := by
      simp only [decideEvents, critical, freed, if_true, ended.foreseen]
    rw [reached_of_idle fun _ _ _ => by simp [freed]]
    rw [decisions_append, decisions_seen, decided, reached_eq]
    rfl
  cases todo with
  | nil => exact ends w (.grabbed locked) taken
  | cons p rest =>
      cases locked with
      | none =>
          simp only [grabStep] at taken
          split at taken
          · rename_i expired
            exact ends _ (.expired p rest expired) taken
          · rename_i unexpired
            have kept : w.expired p = false := by simpa using unexpired
            subst taken
            refine goes_on (p :: rest) _ rfl (promote_owned critical) rfl rfl rfl ?_
            intro _ q tail shape
            cases shape
            exact kept
      | some locked =>
          simp only [grabStep, insertLocked, found] at taken
          subst taken
          refine goes_on rest none rfl (keep_owned critical found) rfl rfl ?_ fun gone => absurd rfl gone
          have kept := alive (by simp) p rest rfl
          simp [World.foreseen, kept]

theorem Reached.step {events : List CallEvent} {reached : List (BodyId × Bool)}
    (known : Reached i events reached w) (placed : w.SectionPlaced)
    (uninterrupted : Uninterrupted w a) (stepped : w.step a = some w') :
    Reached i (events ++ w.callEvents i a) (reached ++ w.reachEvents i a) w' := by
  have effect := (step_effect stepped).2
  simp only [callEvents, reachEvents, stepped]
  by_cases searching : ∃ b todo locked,
      w.critical = some (.grabTrackedObjects (.iterator i) b todo locked)
  · obtain ⟨b, todo, locked, critical⟩ := searching
    have acting : a = .section := uninterrupted (by simp [critical])
    subst acting
    have after := known.search placed critical stepped
    simpa only [critical, List.append_nil] using after
  · have idle : ∀ b todo locked,
        w.critical ≠ some (.grabTrackedObjects (.iterator i) b todo locked) :=
      fun b todo locked critical => searching ⟨b, todo, locked, critical⟩
    have decided : decisions (events ++ seen i w w') = decisions events := by
      rw [decisions_append, decisions_seen,
        decideEvents_nil fun b todo locked critical => absurd critical (idle b todo locked)]
      exact List.append_nil _
    have before := (reached_of_idle idle).mp known
    by_cases starts : ∃ b todo locked,
        w'.critical = some (.grabTrackedObjects (.iterator i) b todo locked)
    · obtain ⟨b, todo, locked, critical'⟩ := starts
      obtain ⟨free, rfl, rfl, rfl⟩ := effect.starts_search idle critical'
      simp only [Reached, critical', if_true, decided, free, before]
      have owned : ∀ o, (w.enterGrab (.iterator i) b).owned o = w.owned o := by
        intro o
        simp only [World.owned, lockedObject, free, enterGrab, enter]
        rfl
      refine ⟨?_, fun promoted => absurd rfl promoted⟩
      rw [callable_foreseen, foreseen_congr _ owned rfl rfl]
    · have idle' : ∀ b todo locked,
          w'.critical ≠ some (.grabTrackedObjects (.iterator i) b todo locked) :=
        fun b todo locked critical => starts ⟨b, todo, locked, critical⟩
      rw [reached_of_idle idle', decided, before]
      split
      · rename_i j b todo locked free critical'
        split
        · rename_i same
          subst same
          exact absurd critical' (idle' b todo locked)
        · exact List.append_nil _
      · exact List.append_nil _

/-! ### The calls of an invocation -/

/-- Single-threaded runs in which slots do anything but set a combiner or destroy the
signal, and in which the invocation is used plainly. -/
structure Reentrant (i : InvocationId) (w : World σ) (a : Action σ) : Prop where
  undisturbed : Undisturbed w a
  uninterrupted : Uninterrupted w a
  plain : PlainUse i w a

structure Followed (plain : Prop) (i : InvocationId) (events : List CallEvent)
    (reached : List (BodyId × Bool)) (w : World σ) : Prop where
  chronicle : Chronicle plain i events w
  reached : Reached i events reached w

theorem followed_run {combiner : σ.Combiner} {owners : ObjectId → Nat}
    {defaultCompare groupCompare : σ.Group → σ.Group → Bool} {actions : List (Action σ)}
    (guarded : Runs.Guarded World.step (Reentrant i)
      (World.construct combiner defaultCompare groupCompare owners) actions)
    (ran : Runs.run World.step (World.construct combiner defaultCompare groupCompare owners)
      actions = some w) :
    Followed True i
      (Runs.outputs World.step (callEvents i)
        (World.construct combiner defaultCompare groupCompare owners) actions)
      (Runs.outputs World.step (reachEvents i)
        (World.construct combiner defaultCompare groupCompare owners) actions) w := by
  have keeps : ∀ (events : List CallEvent) (reached : List (BodyId × Bool)) (s : World σ)
      (a : Action σ) (next : World σ), Followed True i events reached s → Reentrant i s a →
      s.step a = some next →
      Followed True i (events ++ s.callEvents i a) (reached ++ s.reachEvents i a) next := by
    intro events reached s a next followed reentrant stepped
    have placed := followed.chronicle.isolated.positioned.criticalPlaced
    exact {
      chronicle := followed.chronicle.step reentrant.undisturbed.alone.unread
        (fun _ => reentrant.plain) stepped
      reached := followed.reached.step placed reentrant.uninterrupted stepped }
  have start : Followed True i [] []
      (World.construct combiner defaultCompare groupCompare owners) :=
    ⟨construct_chronicle combiner defaultCompare groupCompare owners, rfl⟩
  exact Runs.run_history keeps start guarded ran

/-- What has been decided, with a search in progress foreseen, is what was reached. -/
theorem Reached.decided {events : List CallEvent} {reached : List (BodyId × Bool)}
    (known : Reached i events reached w) :
    reached = decisions events ∨ ∃ b todo locked,
      w.critical = some (.grabTrackedObjects (.iterator i) b todo locked) ∧
        reached = decisions events ++ [(b, w.foreseen b todo)] := by
  by_cases searching : ∃ b todo locked,
      w.critical = some (.grabTrackedObjects (.iterator i) b todo locked)
  · obtain ⟨b, todo, locked, critical⟩ := searching
    exact .inr ⟨b, todo, locked, critical, (known.searching critical).1⟩
  · left
    exact (reached_of_idle fun b todo locked critical =>
      searching ⟨b, todo, locked, critical⟩).mp known

theorem Told.decided {plain : Prop} {inv : Invocation σ} {events : List CallEvent}
    {snapshot : List BodyId} {visits : List Visit}
    (told : Told plain w inv events snapshot visits) :
    decisions events = visits.map fun visit => (visit.body, visit.callable) := by
  rw [told.events, ← decisions_history]
  rfl

theorem Told.counted {plain : Prop} {inv : Invocation σ} {events : List CallEvent}
    {snapshot : List BodyId} {visits : List Visit}
    (told : Told plain w inv events snapshot visits) :
    calls events = calls (visits.flatMap Visit.history) := by
  rw [told.events]
  rfl

/-- The calls are a prefix of the connections decided to be callable; all of them once
the invocation is over. -/
theorem Told.called {inv : Invocation σ} {events : List CallEvent} {snapshot : List BodyId}
    {visits : List Visit} (told : Told True w inv events snapshot visits) :
    calls events <+: ((decisions events).filter Prod.snd).map Prod.fst ∧
      (¬ Working inv → calls events = ((decisions events).filter Prod.snd).map Prod.fst) := by
  have all : (∀ visit ∈ visits, visit.Once) →
      calls events <+: ((decisions events).filter Prod.snd).map Prod.fst ∧
        (¬ Working inv → calls events = ((decisions events).filter Prod.snd).map Prod.fst) := by
    intro once
    have whole : calls events = ((decisions events).filter Prod.snd).map Prod.fst := by
      rw [told.counted, calls_once once, told.decided]
    exact ⟨whole ▸ List.prefix_rfl, fun _ => whole⟩
  cases told.standing with
  | searching s before rest visits state phase nodes iter values visited fresh once =>
      exact all (once trivial)
  | committed s before later node visits visit state phase nodes iter values visited here callable
      once called =>
      refine ⟨?_, fun stopped => ?_⟩
      · have earlier := calls_once (once trivial)
        rw [calls_history] at earlier
        have few : visit.calls ≤ 1 := by
          rw [called trivial]
          split <;> omega
        have last : List.replicate visit.calls visit.body <+: [visit.body] :=
          ⟨List.replicate (1 - visit.calls) visit.body, by
            rw [List.replicate_append_replicate, Nat.add_sub_of_le few]
            rfl⟩
        rw [told.counted, told.decided, calls_history, List.flatMap_append, earlier, List.map_append,
          List.filter_append, List.map_append]
        refine (List.prefix_append_right_inj _).mpr ?_
        simpa [callable] using last
      · rcases phase with ready | ⟨running, _⟩
        · exact absurd (.inr (.inl ready)) stopped
        · exact absurd (.inr (.inr running)) stopped
  | ended visits phase atEnd visited once => exact all (once trivial)
  | quit visits phase visited complete => exact all (complete trivial).2

theorem Standing.visited {plain : Prop} {inv : Invocation σ} {snapshot : List BodyId}
    {visits : List Visit} (standing : Standing plain w inv snapshot visits) :
    visits.map Visit.body <+: snapshot ∧
      (plain → ¬ Working inv → visits.map Visit.body = snapshot) := by
  cases standing with
  | searching s before rest visits state phase nodes iter values visited fresh once =>
      refine ⟨?_, fun _ stopped => absurd (.inl phase) stopped⟩
      rw [visited, values, List.map_append]
      exact List.prefix_append _ _
  | committed s before later node visits visit state phase nodes iter values visited here callable
      once called =>
      refine ⟨⟨later.map Prod.snd, by simp [values, visited, here]⟩, fun _ stopped => ?_⟩
      rcases phase with ready | ⟨running, _⟩
      · exact absurd (.inr (.inl ready)) stopped
      · exact absurd (.inr (.inr running)) stopped
  | ended visits phase atEnd visited once =>
      exact ⟨visited ▸ List.prefix_rfl, fun _ _ => visited⟩
  | quit visits phase visited complete => exact ⟨visited, fun used _ => (complete used).1⟩

/-- The connections reached so far are a prefix of the snapshot, and all of it once the
invocation is over. -/
theorem Followed.reaches {plain : Prop} {inv : Invocation σ} {events : List CallEvent}
    {reached : List (BodyId × Bool)} {snapshot : List BodyId} {visits : List Visit}
    (followed : Followed plain i events reached w) (found : w.invocations[i]? = some inv)
    (told : Told plain w inv events snapshot visits) :
    reached.map Prod.fst <+: snapshot ∧ decisions events <+: reached ∧
      (plain → ¬ Working inv → reached.map Prod.fst = snapshot ∧ reached = decisions events) := by
  have bodies : (decisions events).map Prod.fst = visits.map Visit.body := by
    rw [told.decided, List.map_map]
    rfl
  rcases followed.reached.decided with same | ⟨b, todo, locked, critical, same⟩
  · obtain ⟨initial, whole⟩ := told.standing.visited
    rw [same, bodies]
    exact ⟨initial, List.prefix_rfl, fun used stopped => ⟨whole used stopped, rfl⟩⟩
  · obtain ⟨phase, inside, here⟩ :=
      followed.chronicle.isolated.positioned.criticalPlaced.grab critical found
    obtain ⟨s, before, later, node, state, nodes, iter, values, visited, rfl, fresh, once⟩ :=
      told.standing.searched phase here
    refine ⟨⟨later.map Prod.snd, ?_⟩, ?_, fun _ stopped => absurd (.inl phase) stopped⟩
    · rw [same, List.map_append, bodies, visited, values]
      simp
    · rw [same]
      exact List.prefix_append _ _

/-! ### A connection that is gone is not called again -/

/-- A connection that is disconnected is reached as one that cannot be called. -/
theorem reached_dead {b : BodyId} {actions : List (Action σ)} (dead : (w.bodies b).connected = false)
    (below : b < w.nextBody) (ran : Runs.run World.step w actions = some w') :
    (b, true) ∉ Runs.outputs World.step (reachEvents i) w actions := by
  induction actions generalizing w with
  | nil => exact List.not_mem_nil
  | cons a rest ih =>
      obtain ⟨next, stepped, ranRest⟩ := Runs.run_cons ran
      have effect := (step_effect stepped).2
      have still : (next.bodies b).connected = false := by
        cases now : (next.bodies b).connected with
        | false => rfl
        | true => rw [← dead, ← effect.connected_kept below now]
      have later := ih still (Nat.lt_of_lt_of_le below effect.nextBody_le) ranRest
      intro member
      simp only [Runs.outputs, stepped] at member
      rcases List.mem_append.mp member with here | there
      · simp only [reachEvents, stepped] at here
        split at here
        · split at here
          · have same := List.mem_singleton.mp here
            have found := congrArg Prod.snd same
            cases congrArg Prod.fst same
            simp [World.callable, dead] at found
          · cases here
        · cases here
      · exact later there

/-! ### The calling sequence -/

/-- The slots that an invocation with this snapshot has called, by the connections that
its iterator has reached, with what was true of each at that moment. -/
structure CallingSequence (snapshot : List BodyId) (reached : List (BodyId × Bool))
    (called : List BodyId) (stopped : Prop) : Prop where
  distinct : snapshot.Nodup
  inOrder : reached.map Prod.fst <+: snapshot
  onlyCallable : called <+: (reached.filter Prod.snd).map Prod.fst
  complete : stopped → reached.map Prod.fst = snapshot ∧
    called = (reached.filter Prod.snd).map Prod.fst

theorem CallingSequence.mem {snapshot : List BodyId} {reached : List (BodyId × Bool)}
    {called : List BodyId} {stopped : Prop}
    (sequence : CallingSequence snapshot reached called stopped) {b : BodyId} (member : b ∈ called) :
    (b, true) ∈ reached ∧ (b, false) ∉ reached ∧ b ∈ snapshot := by
  obtain ⟨⟨other, flag⟩, inside, rfl⟩ := List.mem_map.mp (sequence.onlyCallable.subset member)
  obtain ⟨found, callable⟩ := List.mem_filter.mp inside
  have flagged : flag = true := callable
  subst flagged
  refine ⟨found, fun twice => ?_, sequence.inOrder.subset (List.mem_map_of_mem found)⟩
  have distinct := sequence.distinct.sublist sequence.inOrder.sublist
  have same := List.inj_on_of_nodup_map distinct found twice rfl
  cases same

/-- The same for the decisions, whatever comes between the steps of a search. -/
theorem Told.sequence {inv : Invocation σ} {events : List CallEvent} {snapshot : List BodyId}
    {visits : List Visit} (told : Told True w inv events snapshot visits) :
    CallingSequence snapshot (decisions events) (calls events) (¬ Working inv) := by
  have bodies : (decisions events).map Prod.fst = visits.map Visit.body := by
    rw [told.decided, List.map_map]
    rfl
  obtain ⟨called, all⟩ := told.called
  obtain ⟨initial, whole⟩ := told.standing.visited
  exact {
    distinct := told.distinct
    inOrder := bodies ▸ initial
    onlyCallable := called
    complete := fun stopped => ⟨bodies ▸ whole trivial stopped, all stopped⟩ }

theorem Followed.sequence {inv : Invocation σ} {events : List CallEvent}
    {reached : List (BodyId × Bool)} (followed : Followed True i events reached w)
    (found : w.invocations[i]? = some inv) :
    ∃ snapshot later, events = .start snapshot :: later ∧ (∀ b ∈ snapshot, b < w.nextBody) ∧
      CallingSequence snapshot reached (calls events) (¬ Working inv) := by
  obtain ⟨snapshot, visits, told⟩ := followed.chronicle.told inv found
  obtain ⟨initial, decided, whole⟩ := followed.reaches found told
  obtain ⟨called, all⟩ := told.called
  refine ⟨snapshot, _, told.events, told.known, ?_⟩
  exact {
    distinct := told.distinct
    inOrder := initial
    onlyCallable := called.trans ((decided.filter _).map _)
    complete := fun stopped => by
      obtain ⟨complete, same⟩ := whole trivial stopped
      rw [same]
      exact ⟨same ▸ complete, all stopped⟩ }

/-- An invocation calls exactly those connections of its snapshot that can be called at
the moment its iterator reaches them, in the order of the snapshot and each once.  A
connection made after the start, or gone before it is reached, is never called. -/
theorem invocation_calls_callable {combiner : σ.Combiner} {owners : ObjectId → Nat}
    {defaultCompare groupCompare : σ.Group → σ.Group → Bool} {actions : List (Action σ)}
    {inv : Invocation σ} (order : StrictWeak groupCompare)
    (agree : ∀ x y, defaultCompare x y = groupCompare x y)
    (guarded : Runs.Guarded World.step (Reentrant i)
      (World.construct combiner defaultCompare groupCompare owners) actions)
    (ran : Runs.run World.step (World.construct combiner defaultCompare groupCompare owners)
      actions = some w) (found : w.invocations[i]? = some inv) :
    let start := World.construct combiner defaultCompare groupCompare owners
    let events := Runs.outputs World.step (callEvents i) start
    let reached := Runs.outputs World.step (reachEvents i) start
    (∃ snapshot later, events actions = .start snapshot :: later ∧
      CallingSequence snapshot (reached actions) (calls (events actions)) (¬ Working inv)) ∧
    (∀ earlier later middle, actions = earlier ++ later →
      Runs.run World.step start earlier = some middle →
      (i < middle.invocations.length → ∀ b ∈ calls (events actions), b < middle.nextBody) ∧
      ∀ b < middle.nextBody, (middle.bodies b).connected = false →
        b ∉ (reached earlier).map Prod.fst → b ∉ calls (events actions)) ∧
    (∀ b, (b, false) ∈ reached actions → b ∉ calls (events actions)) ∧
    w.fault = none ∧
    (w.critical = none → inv.phase ≠ .running → inv.phase ≠ .done →
      ∃ a : Action σ, a.invocation = some i ∧ PlainUse i w a ∧ (w.step a).isSome) := by
  have same : defaultCompare = groupCompare := funext fun x => funext fun y => agree x y
  subst same
  intro start events reached
  have orderly := (construct_orderly combiner defaultCompare owners).run order
    (guarded.mono fun _ _ reentrant => reentrant.undisturbed) ran
  have followed := followed_run guarded ran
  obtain ⟨snapshot, tail, began, known, sequence⟩ := followed.sequence found
  refine ⟨⟨snapshot, tail, began, sequence⟩, ?_, ?_, orderly.sound, ?_⟩
  · rintro earlier later middle rfl before
    obtain ⟨guardedEarlier, guardedLater⟩ := (Runs.guarded_append before).mp guarded
    rw [Runs.run_append, before] at ran
    have split : events (earlier ++ later) =
        events earlier ++ Runs.outputs World.step (callEvents i) middle later :=
      Runs.outputs_append before
    have split' : reached (earlier ++ later) =
        reached earlier ++ Runs.outputs World.step (reachEvents i) middle later :=
      Runs.outputs_append before
    refine ⟨fun young b member => ?_, fun b below dead unreached member => ?_⟩
    · obtain ⟨snapshot', tail', began', known', _⟩ :=
        (followed_run guardedEarlier before).sequence (List.getElem?_eq_getElem young)
      have begins : events earlier = .start snapshot' :: tail' := began'
      have both : .start snapshot' :: (tail' ++ Runs.outputs World.step (callEvents i) middle later) =
          CallEvent.start snapshot :: tail := by
        rw [begins] at split
        exact split.symm.trans began
      cases both
      exact known' b (sequence.mem member).2.2
    · have here : (b, true) ∈ reached (earlier ++ later) := (sequence.mem member).1
      rw [split'] at here
      rcases List.mem_append.mp here with first | second
      · exact unreached (List.mem_map_of_mem first)
      · exact reached_dead dead below ran second
  · intro b skipped member
    exact (sequence.mem member).2.1 skipped
  · intro free idle progress
    exact invocation_enabled orderly.sound free found idle progress

/-- Evaluates `Reentrant`, for runs that never set a combiner. -/
def reentrant (i : InvocationId) (w : World σ) (a : Action σ) : Bool :=
  match a with
  | .section => true
  | .destroy => false
  | .setCombiner _ => false
  | .slotThrows j _ => w.critical.isNone && j != i
  | .increment j =>
      w.critical.isNone && (j != i || (w.invocations[i]?.all fun inv => inv.result.isSome))
  | .finish j =>
      w.critical.isNone && (j != i || (w.invocations[i]?.all fun inv => inv.iter.node.isNone))
  | _ => w.critical.isNone

theorem Reentrant.of_check (holds : w.reentrant i a = true) : Reentrant i w a := by
  have free : a ≠ .section → w.critical = none := by
    intro other
    cases a <;> simp_all [reentrant]
  refine ⟨⟨fun same => ?_, fun combiner same => ?_⟩, fun taken => ?_, ⟨?_, ?_, ?_⟩⟩
  · subst same
    cases holds
  · subst same
    cases holds
  · by_contra other
    exact taken (free other)
  · rintro expiredSlot rfl
    simp [reentrant] at holds
  · rintro rfl inv found
    simp only [reentrant, found, bne_self_eq_false, Bool.false_or, Option.all_some,
      Bool.and_eq_true] at holds
    exact Option.isSome_iff_ne_none.mp holds.2
  · rintro rfl inv found
    simp only [reentrant, found, bne_self_eq_false, Bool.false_or, Option.all_some,
      Bool.and_eq_true] at holds
    exact Option.isNone_iff_eq_none.mp holds.2

end World

/-- Three connections; the first slot called disconnects the second and connects a
fourth, then a nested invocation starts and is left at once. -/
def disconnectFromSlot : List (Action natSignal) :=
  [connectBack 10, .section, connectBack 11, .section, .section, connectBack 12, .section,
    .section, .section, .invoke, .section, .section, .lockNext 0, .section, .dereference 0,
    .disconnect 1, connectBack 13, .section, .section, .section, .section, .invoke, .section,
    .section, .lockNext 1, .section, .finish 1, .janitor 1, .destroyCache 1, .releaseState 1,
    .slotReturns 0 5, .increment 0, .lockNext 0, .section, .lockNext 0, .section,
    .dereference 0, .slotReturns 0 6, .increment 0, .reachEnd 0, .finish 0, .janitor 0,
    .destroyCache 0, .releaseState 0]

theorem disconnectFromSlot_calls :
    ∃ (w : World natSignal) (inv : Invocation natSignal),
      Runs.run World.step natStart disconnectFromSlot = some w ∧
      w.invocations[0]? = some inv ∧ inv.phase = .done ∧
      Runs.outputs World.step (World.reachEvents 0) natStart disconnectFromSlot =
        [(0, true), (1, false), (2, true)] ∧
      calls (Runs.outputs World.step (World.callEvents 0) natStart disconnectFromSlot) = [0, 2] ∧
      ∃ snapshot later,
        Runs.outputs World.step (World.callEvents 0) natStart disconnectFromSlot =
          .start snapshot :: later ∧
        World.CallingSequence snapshot
          (Runs.outputs World.step (World.reachEvents 0) natStart disconnectFromSlot)
          (calls (Runs.outputs World.step (World.callEvents 0) natStart disconnectFromSlot))
          (¬ World.Working inv) := by
  have ends : (Runs.run World.step natStart disconnectFromSlot).bind
      (fun w => w.invocations[0]?.map Invocation.phase) = some .done := by decide +kernel
  obtain ⟨w, ran, here⟩ := Option.bind_eq_some_iff.mp ends
  obtain ⟨inv, found, stopped⟩ := Option.map_eq_some_iff.mp here
  have guarded : Runs.Guarded World.step (World.Reentrant 0) natStart disconnectFromSlot :=
    .of_checked (fun _ _ => World.Reentrant.of_check) (by decide +kernel)
  refine ⟨w, inv, ran, found, stopped, (by decide +kernel), (by decide +kernel), ?_⟩
  exact (World.invocation_calls_callable natLess_strictWeak (fun _ _ => rfl) guarded ran found).1

end Signals2
