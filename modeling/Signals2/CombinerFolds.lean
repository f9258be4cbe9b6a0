/-
What a run of a provided combiner comes to: which slots it tries, what it returns or
throws, which connections it takes away and what it gives back.
-/

import Mathlib.Data.List.Perm.Subperm
import Signals2.CallSequence
import Signals2.Combiners

namespace Signals2

open LinkedLists

variable {σ : SignalTemplate} {Result Answer : Type}

namespace World

open IteratorEvent

variable {w w' : World σ} {a : Action σ} {i : InvocationId} {inv inv' : Invocation σ}
  {events : List (IteratorEvent σ.Result)} {code : CombinerCode σ.Result Answer}
  {point : ProgramPoint σ.Result Answer}

/-! ### Who disconnects -/

/-- A step that can take the connection of a body away. -/
inductive Disconnector (w w' : World σ) : Action σ → BodyId → Prop
  | client (b : BodyId) : Disconnector w w' (.disconnect b) b
  | traversal (t : TraversalId) (b : BodyId) : Disconnector w w' (.advance t) b
  | expiredSlot (i : InvocationId) (inv : Invocation σ) (b : BodyId)
      (found : w.invocations[i]? = some inv) (here : w.bodyAt inv.localState inv.iter = some b) :
      Disconnector w w' (.slotThrows i true) b
  | expiredObject (client : GrabClient) (b : BodyId) (p : VoidWeakPtr) (rest : List VoidWeakPtr)
      (locked : Option (Option ObjectId))
      (critical : w.critical = some (.grabTrackedObjects client b (p :: rest) locked))
      (ended : w'.critical = none) : Disconnector w w' .section b
  | connectedSignal (t : TraversalId) (b : BodyId) (weakPimpl pimpl : ObjectId)
      (locked : Option ObjectId)
      (critical : w.critical = some (.contains t b weakPimpl pimpl locked)) :
      Disconnector w w' .section b
  | sweep (b : BodyId) (sweeping : w.sweeping = true) : Disconnector w w' .section b

theorem nolockDisconnect_only {b c : BodyId} (before : (w.bodies b).connected = true)
    (after : ((w.nolockDisconnect c).bodies b).connected = false) : b = c := by
  by_contra apart
  have kept : ((w.nolockDisconnect c).bodies b).connected = (w.bodies b).connected :=
    BodyStore.nolockDisconnect_other apart
  rw [kept, before] at after
  cases after

theorem Ended.disconnector {u : World σ} {b other : BodyId} {todo : List VoidWeakPtr}
    {locked : Option (Option ObjectId)} (ended : Ended w other todo locked u)
    (before : (w.bodies b).connected = true) (after : (u.bodies b).connected = false) :
    b = other ∧ ∃ p rest, todo = p :: rest := by
  cases ended with
  | grabbed locked =>
      rw [before] at after
      cases after
  | expired p rest expired => exact ⟨nolockDisconnect_only before after, p, rest, rfl⟩

theorem tested_disconnector {u : World σ} {b other : BodyId} {condition : Prop}
    [Decidable condition] (tested : u = if condition then w.nolockDisconnect other else w)
    (before : (w.bodies b).connected = true) (after : (u.bodies b).connected = false) :
    b = other := by
  subst tested
  split at after
  · exact nolockDisconnect_only before after
  · rw [before] at after
    cases after

theorem Effect.disconnector (effect : Effect w a w') (sound : w'.fault = none) {b : BodyId}
    (before : (w.bodies b).connected = true)
    (after : (w'.bodies b).connected = false) : Disconnector w w' a b := by
  have unchanged : w'.bodies b = w.bodies b → Disconnector w w' a b := by
    intro same
    rw [same, before] at after
    cases after
  have kept : (w'.bodies b).connected = (w.bodies b).connected → Disconnector w w' a b := by
    intro same
    rw [same, before] at after
    cases after
  cases effect with
  | keep client other p rest locked critical =>
      apply unchanged
      unfold insertLocked
      split
      · split <;> rfl
      · rfl
  | answer other todo locked u critical ended =>
      obtain ⟨rfl, p, rest, rfl⟩ := ended.disconnector before after
      exact .expiredObject _ b p rest locked critical rfl
  | count t other todo locked u tr critical ended found =>
      obtain ⟨rfl, p, rest, rfl⟩ := ended.disconnector before after
      exact .expiredObject _ b p rest locked critical rfl
  | commit i other locked inv critical found connected unblocked =>
      exact kept (BodyStore.setActiveSlot_connected inv.activeSlot (some other) b)
  | skip i other todo locked u inv critical ended found blocked =>
      obtain ⟨rfl, p, rest, rfl⟩ := ended.disconnector before after
      exact .expiredObject _ b p rest locked critical rfl
  | lost client other todo locked u critical ended missing =>
      obtain ⟨rfl, p, rest, rfl⟩ := ended.disconnector before after
      exact .expiredObject _ b p rest locked critical rfl
  | contains t other weakPimpl pimpl locked u tr critical tested found =>
      cases tested_disconnector tested before after
      exact .connectedSignal t b weakPimpl pimpl locked critical
  | containsLost t other weakPimpl pimpl locked u critical tested missing =>
      cases tested_disconnector tested before after
      exact .connectedSignal t b weakPimpl pimpl locked critical
  | sweepErase it k count grabTracked later impl other list next critical =>
      exact .sweep b (by simp [sweeping, critical])
  | sweepSkip it k count grabTracked later impl other critical =>
      exact .sweep b (by simp [sweeping, critical])
  | sweepEnd it k count grabTracked later impl critical =>
      exact .sweep b (by simp [sweeping, critical])
  | disconnect other free alive =>
      cases nolockDisconnect_only before after
      exact .client b
  | throwExpired i inv other free found phase here =>
      cases nolockDisconnect_only (w := w.setInvocation i { inv with phase := .ready }) before after
      exact .expiredSlot i inv b found here
  | walkDisconnect t tr other free found inside here targets => exact .traversal t b
  | reachEnd i inv free found phase atEnd callable =>
      exact kept (BodyStore.setActiveSlot_connected inv.activeSlot none b)
  | destroyCache i inv free found phase active =>
      exact kept (BodyStore.setActiveSlot_connected inv.activeSlot none b)
  | outside w' outside =>
      apply kept
      rw [outside.bodies b]
  | fault u f cause u_eq => cases sound
  | _ => exact unchanged rfl

/-! ### A provided combiner at work -/

/-- A step of the invocation: its combiner and its slots, its searches, its end. -/
def own (i : InvocationId) (w : World σ) (a : Action σ) : Bool :=
  decide (a.caller = some i) || decide (a.invocation = some i) ||
    match a, w.critical with
    | .section, some (.grabTrackedObjects (.iterator j) _ _ _) => decide (j = i)
    | _, _ => false

/-- The connections that such a step takes away. -/
def disconnectedBy (i : InvocationId) (w : World σ) (a : Action σ) : List BodyId :=
  match w.step a with
  | none => []
  | some w' =>
      if w'.fault.isNone && own i w a then
        (List.range w.nextBody).filter fun b =>
          (w.bodies b).connected && !(w'.bodies b).connected
      else []

/-- It does so for `expired_slot`, or for a tracked object that has expired. -/
theorem disconnectedBy_event (journal : Journal i events w) (stepped : w.step a = some w')
    {b : BodyId} (member : b ∈ disconnectedBy i w a) :
    .throws b true ∈ iteratorEvents i w a ∨ .decide b false ∈ iteratorEvents i w a := by
  obtain ⟨before, effect⟩ := step_effect stepped
  simp only [disconnectedBy, stepped] at member
  split at member
  · rename_i guard
    obtain ⟨sound, mine⟩ := Bool.and_eq_true_iff.mp guard
    have sound' : w'.fault = none := by simpa using sound
    obtain ⟨_, flags⟩ := List.mem_filter.mp member
    obtain ⟨connected, disconnected⟩ := Bool.and_eq_true_iff.mp flags
    have after : (w'.bodies b).connected = false := by simpa using disconnected
    cases effect.disconnector sound' connected after with
    | client => simp [own, Action.caller, Action.invocation] at mine
    | traversal t => simp [own, Action.caller, Action.invocation] at mine
    | expiredSlot j inv b found here =>
        have same : j = i := by simpa [own, Action.caller, Action.invocation] using mine
        subst same
        obtain ⟨inv', c, found', running, stood, _, shown, _⟩ := journal.slotThrows stepped sound'
        obtain ⟨c', stood', exactly⟩ := (journal.told before inv found).disconnects found stepped
          sound'
        cases stood.symm.trans stood'
        have at_ : b = c := by
          by_contra apart
          rw [exactly b, connected] at after
          simp [apart] at after
        rw [shown, at_]
        exact .inl (by simp)
    | expiredObject client b p rest locked critical ended =>
        right
        cases client with
        | iterator j =>
            have same : j = i := by
              simpa [own, Action.caller, Action.invocation, critical] using mine
            subst same
            rw [iteratorEvents_sound stepped sound']
            apply List.mem_append_left
            refine List.mem_map.mpr ⟨.decide b false, ?_, rfl⟩
            simp [seen, decideEvents, critical, ended]
        | connected => simp [own, Action.caller, Action.invocation, critical] at mine
        | traversal t => simp [own, Action.caller, Action.invocation, critical] at mine
    | connectedSignal t b weakPimpl pimpl locked critical =>
        simp [own, Action.caller, Action.invocation, critical] at mine
    | sweep b sweeping =>
        unfold World.sweeping at sweeping
        split at sweeping
        · rename_i critical
          simp [own, Action.caller, Action.invocation, critical] at mine
        · cases sweeping
  · cases member

/-- No invocation is ever taken off the record. -/
theorem Effect.absent (effect : Effect w a w') (gone : w'.invocations[i]? = none) :
    w.invocations[i]? = none := by
  rw [List.getElem?_eq_none_iff] at gone ⊢
  cases effect.invocations with
  | same invocations => rwa [invocations] at gone
  | progress j inv inv' found how invocations => rwa [invocations, List.length_set] at gone
  | join impl present invocations lists =>
      rw [invocations, List.length_append] at gone
      exact Nat.le_trans (Nat.le_add_right _ _) gone

/-- What is known of an invocation with its combiner at a point; `gone` are the
connections that its own steps have taken away. -/
structure Conducting (code : CombinerCode σ.Result Answer) (i : InvocationId)
    (events : List (IteratorEvent σ.Result)) (gone : List BodyId) (d : Driven σ Answer) :
    Prop where
  journal : Journal i events d.world
  counted : d.world.Counted
  absent : d.world.fault = none → d.world.invocations[i]? = none → d.point = code.start
  fits : d.world.fault = none → ∀ inv, d.world.invocations[i]? = some inv →
    Fits code events inv d.point
  -- when the loop has come to its end, so has the iterator
  exhausted : d.world.fault = none → ∀ exit, d.point = .leave exit → exit ≠ .slotException →
    ∀ inv, d.world.invocations[i]? = some inv → ∀ s, inv.localState = some s →
      ∀ b ∈ (d.world.listOf s).list.values, b ∈ snapshot events → b ∈ decided events
  expired : ∀ b, .throws b true ∈ events →
    b < d.world.nextBody ∧ (d.world.bodies b).connected = false
  only : ∀ b ∈ gone, .throws b true ∈ events ∨ .decide b false ∈ events

variable {d d' : Driven σ Answer} {gone : List BodyId}

theorem construct_conducting (code : CombinerCode σ.Result Answer) (combiner : σ.Combiner)
    (defaultCompare groupCompare : σ.Group → σ.Group → Bool) (owners : ObjectId → Nat) :
    Conducting code i [] []
      { world := World.construct combiner defaultCompare groupCompare owners
        point := code.start } where
  journal := construct_journal combiner defaultCompare groupCompare owners
  counted := construct_counted combiner defaultCompare groupCompare owners
  absent _ _ := rfl
  fits _ inv found := by cases found
  exhausted _ exit _ _ inv found := by cases found
  expired b member := by cases member
  only b member := by cases member

private theorem Conducting.fits_own (conducting : Conducting code i events gone d)
    (proper : code.Proper) (mine : a.combining = some i) (stepped : d.world.step a = some w')
    (sound : w'.fault = none) (found : d.world.invocations[i]? = some inv)
    {next : ProgramPoint σ.Result Answer} (followed : code.follow inv d.point a = some next)
    (found' : w'.invocations[i]? = some inv') :
    Fits code (events ++ iteratorEvents i d.world a) inv' next := by
  obtain ⟨before, effect⟩ := step_effect stepped
  have journal := conducting.journal
  have fits := conducting.fits before inv found
  cases a with
  | dereference j =>
      cases mine
      obtain ⟨_, b, here, ready, inside, stood, how, _⟩ := journal.dereference stepped sound
      cases found.symm.trans here
      obtain ⟨fresh, called⟩ := fits.call followed stood
      rcases how with ⟨result, cached, _, _⟩ | ⟨_, rfl, shown⟩
      · rw [fresh] at cached
        cases cached
      · rw [setInvocation_here found] at found'
        cases found'
        rw [shown]
        exact called
  | slotReturns j result =>
      cases mine
      obtain ⟨_, b, here, running, stood, rfl, shown, _⟩ := journal.slotReturns stepped sound
      cases found.symm.trans here
      rw [setInvocation_here found] at found'
      cases found'
      rw [shown]
      exact fits.returns followed stood
  | slotThrows j expiredSlot =>
      cases mine
      obtain ⟨_, b, here, running, stood, left, shown, _⟩ := journal.slotThrows stepped sound
      cases found.symm.trans here
      cases found'.symm.trans left
      rw [shown]
      exact fits.throws followed stood
  | increment j =>
      cases mine
      obtain ⟨_, after, b, here, ready, stood, rfl, phase', fresh, shown, _⟩ :=
        journal.increment stepped sound
      cases found.symm.trans here
      rw [setInvocation_here found] at found'
      cases found'
      rw [shown]
      exact fits.advance followed b phase' fresh
  | finish j =>
      cases mine
      rw [iteratorEvents_finish stepped, List.append_nil]
      obtain ⟨_, here, ready, rfl⟩ := step_finish stepped
      cases found.symm.trans here
      rw [setInvocation_here found] at found'
      cases found'
      have course := journal.told before inv found
      exact (fits.finish proper.coherent followed ready (course.ready ready).mp).1
  | _ => cases mine

private theorem Conducting.fits_other (conducting : Conducting code i events gone d)
    (proper : code.Proper) (other : a.combining ≠ some i) (stepped : d.world.step a = some w')
    (sound : w'.fault = none) (found' : w'.invocations[i]? = some inv') :
    Fits code (events ++ iteratorEvents i d.world a) inv' d.point := by
  obtain ⟨before, effect⟩ := step_effect stepped
  have journal := conducting.journal
  have notCaller : a.caller ≠ some i := by
    intro caller
    cases a with
    | finish j => cases caller
    | _ => exact other caller
  rw [iteratorEvents_sound stepped sound, outcomeEvents_other notCaller, List.append_nil]
  have observed : Observed i d.world a w' (seen i d.world w') :=
    effect.observed journal.charted.sectionPlaced
  cases found : d.world.invocations[i]? with
  | some inv =>
      exact (conducting.fits before inv found).others (journal.told before inv found) observed
        effect other found found'
  | none =>
      have empty := journal.absent before found
      subst empty
      rw [conducting.absent before found]
      generalize seen i d.world w' = shown at observed
      cases observed with
      | start impl present absent joined lists =>
          cases found'.symm.trans joined
          have phase : (d.world.newInvocation impl).phase = .searching ∨
              (d.world.newInvocation impl).phase = .ready := by
            simp only [newInvocation]
            split <;> simp
          have sofar : Sofar (σ := σ)
              [.start (d.world.heap.connectionBodies impl).list.values] none [] := by
            constructor <;> simp [outcomes, attempts, lastReturned, callables, attempted]
          rcases proper with start | ⟨start, _⟩
          · rw [start]
            exact .test none sofar rfl phase rfl
          · rw [start]
            exact .entry start sofar rfl phase rfl
      | same kept => cases found'.symm.trans (kept.trans found)
      | commit old new b here => cases found.symm.trans here
      | skip old new b here => cases found.symm.trans here
      | call old b here => cases found.symm.trans here
      | aside old new here => cases found.symm.trans here

/-- What was on the list when the invocation began, and still is, was there before the step. -/
theorem Course.values_old (course : Course w inv events) (charted : w.Charted)
    (effect : Effect w a w') (member : inv ∈ w.invocations) {s : StateId}
    (state : inv.localState = some s) {b : BodyId} (inside : b ∈ (w'.listOf s).list.values)
    (old : b ∈ snapshot events) : b ∈ (w.listOf s).list.values := by
  have reader : some s ∈ w.readers .invocation := List.mem_map.mpr ⟨inv, member, state⟩
  have change := effect.list_change charted.sharing (charted.sharing.readers _ s reader)
  generalize (w'.listOf s).list = list' at change inside
  cases change with
  | same => exact inside
  | erase place => exact (List.filter_sublist.map Prod.snd).subset inside
  | insert place =>
      have whole : ((w.listOf s).list.insert place w.nextBody).values.Perm
          (w.nextBody :: (w.listOf s).list.values) :=
        (insertBefore_perm _ _ _).map Prod.snd
      rcases List.mem_cons.mp (whole.subset inside) with new | earlier
      · subst new
        exact absurd (course.known _ (.inl old)) (Nat.lt_irrefl _)
      · exact earlier

/-- The loop ends where the iterator does. -/
theorem CombinerCode.finished {exit : Exit Answer}
    (followed : code.follow inv point a = some (.leave exit)) (normal : exit ≠ .slotException) :
    a.combining = some i → a = .finish i ∧ (inv.iter.node = none ∨ point = .leave exit) := by
  intro mine
  cases point with
  | entry =>
      cases a with
      | finish j =>
          cases mine
          simp only [CombinerCode.follow] at followed
          split at followed
          · rename_i here
            exact ⟨rfl, .inl here⟩
          · cases followed
      | dereference j =>
          simp only [CombinerCode.follow, ProgramPoint.attempt] at followed
          split at followed <;> cases followed
      | _ => cases followed
  | test value =>
      cases a with
      | finish j =>
          cases mine
          simp only [CombinerCode.follow] at followed
          split at followed
          · rename_i here
            exact ⟨rfl, .inl here⟩
          · cases followed
      | dereference j =>
          simp only [CombinerCode.follow, ProgramPoint.attempt] at followed
          split at followed <;> cases followed
      | _ => cases followed
  | dereference value =>
      cases a with
      | slotReturns j result => cases followed
      | slotThrows j expiredSlot =>
          cases expiredSlot with
          | true => cases followed
          | false =>
              cases followed
              exact absurd rfl normal
      | _ => cases followed
  | increment value =>
      cases a with
      | increment j => cases followed
      | _ => cases followed
  | leave other =>
      cases a with
      | finish j =>
          cases mine
          cases followed
          exact ⟨rfl, .inr rfl⟩
      | _ => cases followed

/-- The end of an iterator that has come to the end of the list. -/
private theorem Conducting.exhausted_step (conducting : Conducting code i events gone d)
    (proper : code.Proper) (stepped : d.step code i a = some d') {exit : Exit Answer}
    (left : d'.point = .leave exit) (normal : exit ≠ .slotException)
    (found' : d'.world.invocations[i]? = some inv') {s : StateId}
    (state : inv'.localState = some s) {b : BodyId}
    (inside : b ∈ (d'.world.listOf s).list.values)
    (old : b ∈ snapshot (events ++ iteratorEvents i d.world a)) :
    b ∈ decided (events ++ iteratorEvents i d.world a) := by
  obtain ⟨moved, how⟩ := Driven.step_some stepped
  obtain ⟨before, effect⟩ := step_effect moved
  have journal := conducting.journal
  cases found : d.world.invocations[i]? with
  | none =>
      rcases how with ⟨_, inv, here, _⟩ | ⟨_, same⟩
      · cases found.symm.trans here
      · rw [same, conducting.absent before found] at left
        exact absurd left (proper.not_left exit)
  | some inv =>
      have course := journal.told before inv found
      have member := List.mem_of_getElem? found
      have earlier : inv.localState = some s := by
        rcases effect.progress found found' with rfl | progress
        · exact state
        · rcases progress.localState with same | released
          · exact same.symm.trans state
          · rw [released] at state
            cases state
      have inside' := course.values_old journal.charted effect member earlier inside
      rw [snapshot_append course.started] at old
      rw [decided_append]
      apply List.mem_append_left
      rcases how with ⟨mine, _, here, followed⟩ | ⟨other, same⟩
      · cases found.symm.trans here
        rw [left] at followed
        obtain ⟨rfl, atEnd | at_⟩ := CombinerCode.finished followed normal mine
        · obtain ⟨_, here', ready, _⟩ := step_finish moved
          cases found.symm.trans here'
          exact course.exhausted ready atEnd earlier (inside' old) old
        · exact conducting.exhausted before exit at_ normal inv found s earlier b (inside' old) old
      · exact conducting.exhausted before exit (same.symm.trans left) normal inv found s earlier b
          (inside' old) old

private theorem Conducting.expired_step (conducting : Conducting code i events gone d)
    (stepped : d.world.step a = some w') {b : BodyId}
    (member : .throws b true ∈ events ++ iteratorEvents i d.world a) :
    b < w'.nextBody ∧ (w'.bodies b).connected = false := by
  obtain ⟨before, effect⟩ := step_effect stepped
  rcases List.mem_append.mp member with old | new
  · obtain ⟨below, dead⟩ := conducting.expired b old
    refine ⟨Nat.lt_of_lt_of_le below effect.nextBody_le, ?_⟩
    cases still : (w'.bodies b).connected with
    | false => rfl
    | true =>
        rw [effect.connected_kept below still] at dead
        cases dead
  · have sound : w'.fault = none := by
      cases fault : w'.fault with
      | none => rfl
      | some f => simp [iteratorEvents, stepped, fault] at new
    rw [iteratorEvents_sound stepped sound] at new
    rcases List.mem_append.mp new with shown | outcome
    · obtain ⟨event, _, same⟩ := List.mem_map.mp shown
      cases event <;> cases same
    · have thrown : a = .slotThrows i true := by
        unfold outcomeEvents at outcome
        split at outcome
        · cases outcome
        · split at outcome
          · split at outcome
            · simp [Option.mem_toList] at outcome
            · cases outcome
          · split at outcome <;> simp at outcome
          · split at outcome
            · rename_i same
              simp only [List.mem_singleton, IteratorEvent.throws.injEq] at outcome
              rw [same, ← outcome.2]
            · cases outcome
          · split at outcome <;> simp at outcome
          · cases outcome
      subst thrown
      obtain ⟨inv, c, found, running, stood, _, shown, _⟩ :=
        conducting.journal.slotThrows stepped sound
      rw [iteratorEvents_sound stepped sound] at shown
      have at_ : b = c := by
        rw [shown] at new
        simpa using new
      subst at_
      have course := conducting.journal.told before inv found
      obtain ⟨c, stood', exactly⟩ := course.disconnects found stepped sound
      cases stood.symm.trans stood'
      have known := course.known b (.inr (standing_decided stood))
      refine ⟨Nat.lt_of_lt_of_le known effect.nextBody_le, ?_⟩
      rw [exactly b]
      simp

theorem Conducting.step (conducting : Conducting code i events gone d) (proper : code.Proper)
    (stepped : d.step code i a = some d') :
    Conducting code i (events ++ iteratorEvents i d.world a)
      (gone ++ disconnectedBy i d.world a) d' := by
  obtain ⟨moved, how⟩ := Driven.step_some stepped
  obtain ⟨before, effect⟩ := step_effect moved
  exact {
    journal := conducting.journal.step moved
    counted := conducting.counted.step effect
    absent := by
      intro _ nowhere
      have earlier := effect.absent nowhere
      rcases how with ⟨_, inv, found, _⟩ | ⟨_, same⟩
      · cases found.symm.trans earlier
      · rw [same]
        exact conducting.absent before earlier
    fits := by
      intro sound inv' found'
      rcases how with ⟨mine, inv, found, followed⟩ | ⟨other, same⟩
      · exact conducting.fits_own proper mine moved sound found followed found'
      · rw [same]
        exact conducting.fits_other proper other moved sound found'
    exhausted := by
      intro sound exit left normal inv' found' s state b inside old
      exact conducting.exhausted_step proper stepped left normal found' state inside old
    expired := fun b member => conducting.expired_step moved member
    only := by
      intro b member
      rcases List.mem_append.mp member with old | new
      · exact (conducting.only b old).imp (List.mem_append_left _) (List.mem_append_left _)
      · exact (disconnectedBy_event conducting.journal moved new).imp
          (List.mem_append_right _) (List.mem_append_right _) }

/-! ### What a run of a combiner comes to -/

/-- What has become of the invocation after the history `events`; `gone` are the
connections that its own steps have taken away. -/
structure Folded (answer : Option σ.Result → Exit Answer) (i : InvocationId)
    (events : List (IteratorEvent σ.Result)) (gone : List BodyId) (d : Driven σ Answer) :
    Prop where
  -- the callable slots are tried in order, each once
  once : (callables events).Nodup
  inOrder : attempted events <+: called events ∧ called events <+: callables events
  left : ∀ exit, d.point = .leave exit →
    callables events = attempted events ∧ called events = attempted events ∧
      (.exception ∉ outcomes events ∧ exit = answer (lastReturned (outcomes events)) ∨
        exit = .slotException ∧ ∃ earlier, .exception ∉ earlier ∧
          outcomes events = earlier ++ [.exception])
  propagates : .exception ∈ outcomes events → d.point = .leave .slotException
  -- the loop has come to the end of the list
  exhausted : ∀ exit, d.point = .leave exit → exit ≠ .slotException →
    ∀ inv, d.world.invocations[i]? = some inv → ∀ s, inv.localState = some s →
      ∀ b ∈ (d.world.listOf s).list.values, b ∈ snapshot events → b ∈ decided events
  -- of the callable slots, those that threw `expired_slot` are disconnected
  expired : ∀ b, (b, .expiredSlot) ∈ attempts events → (d.world.bodies b).connected = false
  only : ∀ b ∈ callables events, b ∈ gone → (b, .expiredSlot) ∈ attempts events
  -- in the end the cache holds no slot
  released : ∀ exit, d.point = .leave exit → ∀ inv, d.world.invocations[i]? = some inv →
    inv.phase = .releasing ∨ inv.phase = .done → inv.activeSlot = none
  refcount : ∀ b, (d.world.bodies b).slotRefcount =
    (if (d.world.bodies b).connected then 1 else 0) +
      d.world.invocations.countP (fun inv => inv.activeSlot = some b)

theorem Fits.inOrder (fits : Fits code events inv point) :
    attempted events <+: called events ∧ called events <+: callables events := by
  have tried : ∀ value found, Sofar events value found → called events = attempted events →
      attempted events <+: called events ∧ called events <+: callables events := by
    intro value found sofar calls
    rw [calls, sofar.callables_eq]
    exact ⟨List.prefix_rfl, List.prefix_append _ _⟩
  cases fits with
  | entry start sofar calls phase fresh => exact tried _ _ sofar calls
  | test value sofar calls phase fresh => exact tried _ _ sofar calls
  | dereference value b stood sofar calls phase =>
      rw [calls, sofar.callables_eq]
      exact ⟨List.prefix_append _ _, List.prefix_rfl⟩
  | increment value sofar calls phase => exact tried _ _ sofar calls
  | leave exit left calls phase quit =>
      cases left with
      | last value sofar => exact tried _ _ sofar calls
      | exception b earlier attempts_eq caught callables_eq =>
          rw [calls, callables_eq]
          exact ⟨List.prefix_rfl, List.prefix_rfl⟩

theorem Left.folded {exit : Exit Answer} (left : Left code events exit) :
    callables events = attempted events ∧
      (.exception ∉ outcomes events ∧ exit = code.answer (lastReturned (outcomes events)) ∨
        exit = .slotException ∧ ∃ earlier, .exception ∉ earlier ∧
          outcomes events = earlier ++ [.exception]) := by
  cases left with
  | last value sofar =>
      refine ⟨by simpa using sofar.callables_eq, .inl ⟨sofar.caught, ?_⟩⟩
      rw [sofar.value_eq]
  | exception b earlier attempts_eq caught callables_eq =>
      refine ⟨callables_eq, .inr ⟨rfl, earlier.map Prod.snd, caught, ?_⟩⟩
      simp [outcomes, attempts_eq]

theorem Fits.propagates (fits : Fits code events inv point)
    (thrown : .exception ∈ outcomes events) : point = .leave .slotException := by
  cases fits with
  | entry start sofar => exact absurd thrown sofar.caught
  | test value sofar => exact absurd thrown sofar.caught
  | dereference value b stood sofar => exact absurd thrown sofar.caught
  | increment value sofar => exact absurd thrown sofar.caught
  | leave exit left =>
      cases left with
      | last value sofar => exact absurd thrown sofar.caught
      | exception b earlier attempts_eq caught callables_eq => rfl

theorem Conducting.folded (conducting : Conducting code i events gone d) (proper : code.Proper)
    (sound : d.world.fault = none) : Folded code.answer i events gone d where
  once := (decided_nodup conducting.journal.lawful).sublist callables_sublist
  inOrder := by
    cases found : d.world.invocations[i]? with
    | none =>
        rw [conducting.journal.absent sound found]
        exact ⟨List.prefix_rfl, List.prefix_rfl⟩
    | some inv => exact (conducting.fits sound inv found).inOrder
  left := by
    intro exit left
    cases found : d.world.invocations[i]? with
    | none => exact absurd ((conducting.absent sound found).symm.trans left) (proper.not_left exit)
    | some inv =>
        have fits := conducting.fits sound inv found
        rw [left] at fits
        cases fits with
        | leave _ how calls phase quit => exact ⟨how.folded.1, calls, how.folded.2⟩
  propagates := by
    intro thrown
    cases found : d.world.invocations[i]? with
    | none =>
        rw [conducting.journal.absent sound found] at thrown
        cases thrown
    | some inv => exact (conducting.fits sound inv found).propagates thrown
  exhausted := conducting.exhausted sound
  expired b thrown := (conducting.expired b (throws_mem thrown)).2
  only := by
    intro b callable member
    rcases conducting.only b member with thrown | skipped
    · exact attempts_mem thrown
    · exact absurd skipped (decide_unique conducting.journal.lawful (callables_mem callable))
  released := by
    intro exit left inv found
    have fits := conducting.fits sound inv found
    rw [left] at fits
    cases fits with
    | leave _ how calls phase quit => exact quit
  refcount := conducting.counted.slotRefcount

/-! ### A combiner does not hang -/

theorem Driven.aside_enabled {a : Action σ} (other : a.combining ≠ some i)
    (enabled : (d.world.step a).isSome) : (d.step code i a).isSome := by
  obtain ⟨w', stepped⟩ := Option.isSome_iff_exists.mp enabled
  simp [Driven.step, stepped, other]

theorem Driven.own_enabled {a : Action σ} (mine : a.combining = some i)
    (found : d.world.invocations[i]? = some inv) (enabled : (d.world.step a).isSome)
    (followed : (code.follow inv d.point a).isSome) : (d.step code i a).isSome := by
  obtain ⟨w', stepped⟩ := Option.isSome_iff_exists.mp enabled
  simpa [Driven.step, stepped, mine, found] using followed

/-- The slot that is being called can end as it likes. -/
theorem Conducting.slot_enabled (conducting : Conducting code i events gone d)
    (sound : d.world.fault = none) (free : d.world.critical = none)
    (found : d.world.invocations[i]? = some inv) (running : inv.phase = .running) :
    (∀ result, (d.step code i (.slotReturns i result)).isSome) ∧
      ∀ expiredSlot, (d.step code i (.slotThrows i expiredSlot)).isSome := by
  have at_ : ∃ value, d.point = .dereference value := by
    have fits := conducting.fits sound inv found
    generalize d.point = point at fits ⊢
    cases fits with
    | entry start sofar calls phase => rcases phase with is | is <;> cases running.symm.trans is
    | test value sofar calls phase => rcases phase with is | is <;> cases running.symm.trans is
    | dereference value => exact ⟨value, rfl⟩
    | increment value sofar calls phase => cases running.symm.trans phase
    | leave exit left calls phase quit =>
        rcases phase with ⟨ready, _⟩ | stopped
        · cases running.symm.trans ready
        · exact absurd (.inr (.inr running)) stopped
  obtain ⟨value, point⟩ := at_
  constructor
  · intro result
    apply Driven.own_enabled rfl found
    · simp [World.step, sound, World.slotReturns, found, running]
    · simp [CombinerCode.follow, point]
  · intro expiredSlot
    apply Driven.own_enabled rfl found
    · simp only [World.step, sound, World.slotThrows, found, running, free, Option.isSome_none,
        Bool.false_eq_true, if_false, if_true]
      split
      · split <;> rfl
      · rfl
    · simp [CombinerCode.follow, point]

/-- The combiner can go on, or its iterator can, and when it has been left its invocation
can be unwound. -/
theorem Conducting.own_enabled (conducting : Conducting code i events gone d)
    (sound : d.world.fault = none) (free : d.world.critical = none)
    (found : d.world.invocations[i]? = some inv) (idle : inv.phase ≠ .running)
    (progress : inv.phase ≠ .done) :
    ∃ a : Action σ, a.invocation = some i ∧ (d.step code i a).isSome := by
  have aside : ∀ a : Action σ, a.combining = none → (d.world.step a).isSome →
      (d.step code i a).isSome := by
    intro a other enabled
    apply Driven.aside_enabled _ enabled
    rw [other]
    exact (Option.some_ne_none i).symm
  have course := conducting.journal.told sound inv found
  have fits := conducting.fits sound inv found
  -- at both tests of the loop
  have tests : inv.phase = .searching ∨ inv.phase = .ready →
      (code.follow inv d.point (.dereference i)).isSome →
      (inv.iter.node = none → (code.follow inv d.point (.finish i)).isSome) →
      ∃ a : Action σ, a.invocation = some i ∧ (d.step code i a).isSome := by
    intro phase dereferences finishes
    rcases phase with searching | ready
    · obtain ⟨a, rfl | rfl | rfl, enabled⟩ := search_enabled sound free found searching
      · exact ⟨.reachEnd i, rfl, aside _ rfl enabled⟩
      · exact ⟨.lockNext i, rfl, aside _ rfl enabled⟩
      · exact ⟨.clearTracked i, rfl, aside _ rfl enabled⟩
    · by_cases inside : inv.iter.node = none
      · refine ⟨.finish i, rfl, Driven.own_enabled rfl found ?_ (finishes inside)⟩
        simp [World.step, sound, World.finish, found, ready]
      · exact ⟨.dereference i, rfl,
          Driven.own_enabled rfl found (dereference_enabled sound found ready inside) dereferences⟩
  generalize same : d.point = point at fits
  cases fits with
  | entry start sofar calls phase fresh =>
      refine tests phase (by simp [CombinerCode.follow, same]) fun inside => ?_
      simp [CombinerCode.follow, same, inside]
  | test value sofar calls phase fresh =>
      refine tests phase (by simp [CombinerCode.follow, same]) fun inside => ?_
      simp [CombinerCode.follow, same, inside]
  | dereference value b stood sofar calls running => exact absurd running idle
  | increment value sofar calls ready stood =>
      have inside : inv.iter.node ≠ none := fun atEnd => stood ((course.ready ready).mp atEnd)
      refine ⟨.increment i, rfl,
        Driven.own_enabled rfl found (increment_enabled sound found ready inside) ?_⟩
      simp [CombinerCode.follow, same]
  | leave exit left calls phase quit =>
      rcases phase with ⟨ready, _⟩ | stopped
      · refine ⟨.finish i, rfl, Driven.own_enabled rfl found ?_ ?_⟩
        · simp [World.step, sound, World.finish, found, ready]
        · simp [CombinerCode.follow, same]
      · obtain ⟨a, rfl | rfl | rfl | rfl, enabled⟩ :=
          unwind_enabled sound free found stopped progress
        · exact ⟨.janitor i, rfl, aside _ rfl enabled⟩
        · exact ⟨.destroyCache i, rfl, aside _ rfl enabled⟩
        · exact ⟨.releaseState i, rfl, aside _ rfl enabled⟩
        · exact ⟨.clearTracked i, rfl, aside _ rfl enabled⟩

/-- Three actions go with the call of a slot, and this is one of them. -/
theorem Conducting.paced (conducting : Conducting code i events gone d) {a : Action σ}
    (mine : a.combining = some i) (stepped : d.world.step a = some w') (sound : w'.fault = none)
    (found : d.world.invocations[i]? = some inv) {next : ProgramPoint σ.Result Answer}
    (followed : code.follow inv d.point a = some next) (staying : ∀ exit, next ≠ .leave exit) :
    (∀ exit, d.point ≠ .leave exit) ∧
      next.ahead + 1 + 3 * (called events).length ≤
        d.point.ahead + 3 * (called (events ++ iteratorEvents i d.world a)).length := by
  have before := (step_effect stepped).1
  have fits := conducting.fits before inv found
  have longer : (called events).length ≤
      (called (events ++ iteratorEvents i d.world a)).length := by
    simp [called, List.filterMap_append]
  have calls : ∀ value, a = .dereference i → next = .attempt inv value →
      next.ahead + 1 + 3 * (called events).length ≤
        3 * (called (events ++ iteratorEvents i d.world a)).length := by
    rintro value rfl rfl
    obtain ⟨_, b, here, ready, inside, stood, how, _⟩ :=
      conducting.journal.dereference stepped sound
    cases found.symm.trans here
    obtain ⟨fresh, _⟩ := fits.call followed stood
    rcases how with ⟨result, cached, _, _⟩ | ⟨_, _, shown⟩
    · rw [fresh] at cached
      cases cached
    · rw [shown]
      simp [called, List.filterMap_append, ProgramPoint.attempt, fresh, ProgramPoint.ahead]
      omega
  generalize d.point = point at followed fits ⊢
  unfold CombinerCode.follow at followed
  split at followed
  · cases mine
    cases followed
    exact ⟨by simp, by simpa [ProgramPoint.ahead] using calls none rfl rfl⟩
  · split at followed <;> cases followed
    exact absurd rfl (staying _)
  · rename_i value j
    cases mine
    cases followed
    exact ⟨by simp, by simpa [ProgramPoint.ahead] using calls value rfl rfl⟩
  · split at followed <;> cases followed
    exact absurd rfl (staying _)
  · cases followed
    constructor
    · intro exit left
      cases left
    · simp only [ProgramPoint.ahead]
      omega
  · rename_i expiredSlot
    cases followed
    cases expiredSlot with
    | true =>
        constructor
        · intro exit left
          cases left
        · simp only [ProgramPoint.ahead, if_true]
          omega
    | false => exact absurd rfl (staying _)
  · cases followed
    constructor
    · intro exit left
      cases left
    · simp only [ProgramPoint.ahead]
      omega
  · cases followed
    exact absurd rfl (staying _)
  · cases followed

theorem Conducting.called_decided (conducting : Conducting code i events gone d)
    (sound : d.world.fault = none) : (called events).length ≤ (decided events).length := by
  cases found : d.world.invocations[i]? with
  | none =>
      rw [conducting.journal.absent sound found]
      exact Nat.le_refl _
  | some inv =>
      have prefixes := (conducting.fits sound inv found).inOrder
      exact (prefixes.2.sublist.trans callables_sublist).length_le

/-- The slots called are among the connections that have been made. -/
theorem Conducting.called_le (conducting : Conducting code i events gone d)
    (sound : d.world.fault = none) : (called events).length ≤ d.world.nextBody := by
  cases found : d.world.invocations[i]? with
  | none =>
      rw [conducting.journal.absent sound found]
      exact Nat.zero_le _
  | some inv =>
      have course := conducting.journal.told sound inv found
      have distinct := decided_nodup conducting.journal.lawful
      have known : decided events ⊆ List.range d.world.nextBody := by
        intro b member
        exact List.mem_range.mpr (course.known b (.inr member))
      have bounded := (List.subperm_of_subset distinct known).length_le
      rw [List.length_range] at bounded
      exact Nat.le_trans (conducting.called_decided sound) bounded

/-! ### The snapshot -/

/-- What the other observer sees of these events. -/
def asCallEvent : IteratorEvent Result → Option CallEvent
  | .start bodies => some (.start bodies)
  | .decide b callable => some (.decide b callable)
  | .call b => some (.call b)
  | _ => none

theorem asCallEvent_ofCallEvent (seen : List CallEvent) :
    (seen.map IteratorEvent.ofCallEvent).filterMap (@asCallEvent Result) = seen := by
  induction seen with
  | nil => rfl
  | cons event rest ih =>
      rw [List.map_cons, List.filterMap_cons, ih]
      cases event <;> rfl

theorem outcomeEvents_unseen : (outcomeEvents i w a).filterMap asCallEvent = [] := by
  unfold outcomeEvents
  split
  · rfl
  · rename_i inv found
    split
    · split
      · cases inv.result <;> rfl
      · rfl
    · split <;> rfl
    · split <;> rfl
    · split <;> rfl
    · rfl

theorem iteratorEvents_seen (stepped : w.step a = some w') (sound : w'.fault = none) :
    (iteratorEvents i w a).filterMap asCallEvent = callEvents i w a := by
  simp only [iteratorEvents, callEvents, stepped, sound, Option.isSome_none, Bool.false_eq_true,
    if_false, List.filterMap_append, asCallEvent_ofCallEvent, outcomeEvents_unseen,
    List.append_nil]

theorem decided_seen (events : List (IteratorEvent Result)) :
    decided events = (decisions (events.filterMap asCallEvent)).map Prod.fst := by
  induction events with
  | nil => rfl
  | cons event rest ih =>
      cases event with
      | decide b callable => exact congrArg (b :: ·) ih
      | _ => exact ih

theorem snapshot_seen {bodies : List BodyId} {later : List CallEvent}
    (lawful : Runs.Along Lawful events)
    (began : events.filterMap asCallEvent = .start bodies :: later) : snapshot events = bodies := by
  cases events with
  | nil => cases began
  | cons event rest =>
      have first := lawful [] event rest rfl
      cases event with
      | start first =>
          cases began
          rfl
      | decide b callable => cases began
      | call b => cases first.1
      | returns b result => cases first.1
      | throws b expiredSlot => cases first.1
      | yields b result => cases first.1
      | increment b => cases first.1

/-- The positions that the iterator examines are those of its snapshot, in their order. -/
theorem Chronicle.decided_prefix (chronicle : Chronicle False i (events.filterMap asCallEvent) w)
    (journal : Journal i events w) (sound : w.fault = none) :
    decided events <+: snapshot events := by
  cases found : w.invocations[i]? with
  | none =>
      rw [journal.absent sound found]
      exact List.prefix_rfl
  | some inv =>
      obtain ⟨bodies, visits, told⟩ := chronicle.told inv found
      rw [decided_seen, told.decided, snapshot_seen journal.lawful told.events, List.map_map]
      exact told.standing.visited.1

/-- The actions of the combiner of an invocation, and of the slots that it calls. -/
def combiningActions (i : InvocationId) (a : Action σ) : List (Action σ) :=
  if a.combining = some i then [a] else []

/-- What keeps the combiner from hanging after a run from its start to `d`. -/
structure Driving (code : CombinerCode σ.Result Answer) (i : InvocationId)
    (actions : List (Action σ)) (d : Driven σ Answer) : Prop where
  -- with the mutex free, the slot that is being called can end in any way
  slot : ∀ inv, d.world.invocations[i]? = some inv → d.world.critical = none →
    inv.phase = .running → (∀ result, (d.step code i (.slotReturns i result)).isSome) ∧
      ∀ expiredSlot, (d.step code i (.slotThrows i expiredSlot)).isSome
  -- otherwise the combiner, its iterator or the end of its invocation can go on
  own : ∀ inv, d.world.invocations[i]? = some inv → d.world.critical = none →
    inv.phase ≠ .running → inv.phase ≠ .done →
      ∃ a : Action σ, a.invocation = some i ∧ (d.step code i a).isSome
  -- and the loop of the combiner does not go on for ever
  bounded : (∀ exit, d.point ≠ .leave exit) →
    (actions.flatMap (combiningActions i)).length ≤ 3 * d.world.nextBody

/-- The loop goes along the snapshot, and takes no more than three actions for each of its
connections. -/
structure AlongSnapshot (i : InvocationId) (events : List (IteratorEvent σ.Result))
    (actions : List (Action σ)) (d : Driven σ Answer) : Prop where
  inOrder : decided events <+: snapshot events
  bounded : (∀ exit, d.point ≠ .leave exit) →
    (actions.flatMap (combiningActions i)).length ≤ 3 * (snapshot events).length

/-- The actions taken so far are paid for by the slots called so far. -/
structure Pacing (code : CombinerCode σ.Result Answer) (i : InvocationId)
    (events : List (IteratorEvent σ.Result)) (taken : List (Action σ)) (d : Driven σ Answer) :
    Prop where
  conducting : ∃ gone, Conducting code i events gone d
  paced : d.world.fault = none → (∀ exit, d.point ≠ .leave exit) →
    taken.length + d.point.ahead ≤ 3 * (called events).length

theorem Pacing.step {taken : List (Action σ)} (pacing : Pacing code i events taken d)
    (proper : code.Proper) (stepped : d.step code i a = some d') :
    Pacing code i (events ++ iteratorEvents i d.world a) (taken ++ combiningActions i a) d' := by
  obtain ⟨gone, conducting⟩ := pacing.conducting
  refine ⟨⟨_, conducting.step proper stepped⟩, fun sound staying => ?_⟩
  obtain ⟨moved, how⟩ := Driven.step_some stepped
  have before := (step_effect moved).1
  rw [List.length_append]
  rcases how with ⟨mine, inv, found, followed⟩ | ⟨other, same⟩
  · obtain ⟨stayed, pace⟩ := conducting.paced mine moved sound found followed staying
    have earlier := pacing.paced before stayed
    simp only [combiningActions, mine, if_true, List.length_singleton]
    omega
  · have earlier := pacing.paced before (same ▸ staying)
    have longer : (called events).length ≤
        (called (events ++ iteratorEvents i d.world a)).length := by
      simp [called, List.filterMap_append]
    simp only [combiningActions, other, if_false, List.length_nil, same]
    omega

theorem Pacing.driving {actions : List (Action σ)}
    (pacing : Pacing code i events (actions.flatMap (combiningActions i)) d)
    (sound : d.world.fault = none) : Driving code i actions d := by
  obtain ⟨gone, conducting⟩ := pacing.conducting
  exact {
    slot := fun inv found free running => conducting.slot_enabled sound free found running
    own := fun inv found free idle progress =>
      conducting.own_enabled sound free found idle progress
    bounded := by
      intro staying
      have paced := pacing.paced sound staying
      have called_le := conducting.called_le sound
      omega }

theorem Pacing.alongSnapshot {actions : List (Action σ)}
    (pacing : Pacing code i events (actions.flatMap (combiningActions i)) d)
    (chronicle : Chronicle False i (events.filterMap asCallEvent) d.world)
    (sound : d.world.fault = none) : AlongSnapshot i events actions d := by
  obtain ⟨gone, conducting⟩ := pacing.conducting
  have examined := chronicle.decided_prefix conducting.journal sound
  constructor
  · exact examined
  · intro staying
    have paced := pacing.paced sound staying
    have called_le := conducting.called_decided sound
    have decided_le := examined.length_le
    omega

end World

/-- A signal, and a combiner that has not been started. -/
def Driven.construct (code : CombinerCode σ.Result Answer) (combiner : σ.Combiner)
    (defaultCompare groupCompare : σ.Group → σ.Group → Bool) (owners : ObjectId → Nat) :
    Driven σ Answer :=
  { world := World.construct combiner defaultCompare groupCompare owners, point := code.start }

/-- What invocation `i` shows in a run, and the connections that its steps take away. -/
def Driven.events (code : CombinerCode σ.Result Answer) (i : InvocationId) (d : Driven σ Answer)
    (actions : List (Action σ)) : List (IteratorEvent σ.Result) :=
  Runs.outputs (Driven.step code i) (fun d a => d.world.iteratorEvents i a) d actions

def Driven.disconnected (code : CombinerCode σ.Result Answer) (i : InvocationId)
    (d : Driven σ Answer) (actions : List (Action σ)) : List BodyId :=
  Runs.outputs (Driven.step code i) (fun d a => d.world.disconnectedBy i a) d actions

/-- In every run with this combiner, as far as it has not gone wrong, the combiner does not
hang and comes to the fold given by `answer`.  Unless a combiner is set meanwhile, it goes
along its snapshot, and its own steps and those of the slots that it calls do not go wrong. -/
def CombinerCode.Folds (code : CombinerCode σ.Result Answer) (i : InvocationId)
    (answer : Option σ.Result → Exit Answer) : Prop :=
  ∀ (combiner : σ.Combiner) (defaultCompare groupCompare : σ.Group → σ.Group → Bool)
    (owners : ObjectId → Nat) (actions : List (Action σ)) (d : Driven σ Answer),
    Runs.run (Driven.step code i) (.construct code combiner defaultCompare groupCompare owners)
        actions = some d →
      (d.world.fault = none →
        World.Folded answer i
          (Driven.events code i
            (.construct code combiner defaultCompare groupCompare owners) actions)
          (Driven.disconnected code i
            (.construct code combiner defaultCompare groupCompare owners) actions) d ∧
        World.Driving code i actions d) ∧
      (Runs.Guarded (Driven.step code i) (fun d a => d.world.CombinerSetAlone a)
          (.construct code combiner defaultCompare groupCompare owners) actions →
        (d.world.fault = none → World.AlongSnapshot i
          (Driven.events code i
            (.construct code combiner defaultCompare groupCompare owners) actions) actions d) ∧
        ∀ (a : Action σ) d', a.caller = some i → d.step code i a = some d' →
          d'.world.fault = none)

theorem CombinerCode.Proper.pacing {code : CombinerCode σ.Result Answer} {i : InvocationId}
    {combiner : σ.Combiner} {defaultCompare groupCompare : σ.Group → σ.Group → Bool}
    {owners : ObjectId → Nat} {actions : List (Action σ)} {d : Driven σ Answer}
    (proper : code.Proper) (ran : Runs.run (Driven.step code i)
      (.construct code combiner defaultCompare groupCompare owners) actions = some d) :
    World.Pacing code i (Driven.events code i
      (.construct code combiner defaultCompare groupCompare owners) actions)
        (actions.flatMap (World.combiningActions i)) d := by
  have paces : ∀ (past : List (IteratorEvent σ.Result)) (taken : List (Action σ))
      (state : Driven σ Answer) (a : Action σ) next, World.Pacing code i past taken state →
      True → state.step code i a = some next →
      World.Pacing code i (past ++ state.world.iteratorEvents i a)
        (taken ++ World.combiningActions i a) next :=
    fun past taken state a next pacing _ stepped => pacing.step proper stepped
  have unstarted := World.construct_conducting (i := i) code combiner defaultCompare
    groupCompare owners
  have unmoved : ([] : List (Action σ)).length + code.start.ahead ≤ 0 := by
    simp [proper.ahead]
  have observed := Runs.run_history paces ⟨⟨[], unstarted⟩, fun _ _ => unmoved⟩
    (.of_forall fun _ _ _ => trivial) ran
  have taken : Runs.outputs (Driven.step code i) (fun _ => World.combiningActions i)
      (.construct code combiner defaultCompare groupCompare owners) actions =
        actions.flatMap (World.combiningActions i) := Runs.outputs_of_actions ran
  rw [← taken]
  exact observed

/-- As long as no combiner is set during an invocation, the other observer agrees. -/
theorem Driven.chronicle {code : CombinerCode σ.Result Answer} {i : InvocationId}
    {combiner : σ.Combiner} {defaultCompare groupCompare : σ.Group → σ.Group → Bool}
    {owners : ObjectId → Nat} {actions : List (Action σ)} {d : Driven σ Answer}
    (alone : Runs.Guarded (Driven.step code i) (fun d a => d.world.CombinerSetAlone a)
      (.construct code combiner defaultCompare groupCompare owners) actions)
    (ran : Runs.run (Driven.step code i)
      (.construct code combiner defaultCompare groupCompare owners) actions = some d) :
    d.world.fault = none → World.Chronicle False i ((Driven.events code i
      (.construct code combiner defaultCompare groupCompare owners) actions).filterMap
        World.asCallEvent) d.world := by
  have keeps : ∀ (past : List (IteratorEvent σ.Result)) (state : Driven σ Answer) (a : Action σ)
      (next : Driven σ Answer), (state.world.fault = none →
        World.Chronicle False i (past.filterMap World.asCallEvent) state.world) →
      state.world.CombinerSetAlone a → state.step code i a = some next →
      (next.world.fault = none → World.Chronicle False i
        ((past ++ state.world.iteratorEvents i a).filterMap World.asCallEvent) next.world) := by
    intro past state a next before alone stepped sound
    have moved := (Driven.step_some stepped).1
    rw [List.filterMap_append, World.iteratorEvents_seen moved sound]
    exact (before (World.step_effect moved).1).step alone.unread (fun impossible => impossible.elim)
      moved
  exact Runs.run_observed keeps
    (fun _ => World.construct_chronicle combiner defaultCompare groupCompare owners) alone ran

theorem CombinerCode.Proper.folds {code : CombinerCode σ.Result Answer} (proper : code.Proper)
    (i : InvocationId) : code.Folds i code.answer := by
  intro combiner defaultCompare groupCompare owners actions d ran
  have pacing := proper.pacing ran
  constructor
  · intro sound
    have steps : ∀ (past : List (IteratorEvent σ.Result)) (gone : List BodyId)
        (state : Driven σ Answer) (a : Action σ) next, World.Conducting code i past gone state →
        True → state.step code i a = some next →
        World.Conducting code i (past ++ state.world.iteratorEvents i a)
          (gone ++ state.world.disconnectedBy i a) next :=
      fun past gone state a next conducting _ stepped => conducting.step proper stepped
    have conducting := Runs.run_history steps
      (World.construct_conducting code combiner defaultCompare groupCompare owners)
      (.of_forall fun _ _ _ => trivial) ran
    exact ⟨conducting.folded proper sound, pacing.driving sound⟩
  · intro alone
    constructor
    · intro sound
      exact pacing.alongSnapshot (Driven.chronicle alone ran sound) sound
    · intro a d' own stepped
      have keeps : ∀ (d : Driven σ Answer) action next, d.world.Guarding →
          d.world.CombinerSetAlone action → d.step code i action = some next →
          next.world.Guarding :=
        fun d action next guarding alone stepped => guarding.step alone (Driven.step_some stepped).1
      have guarding := Runs.run_invariant keeps
        (World.construct_guarding combiner defaultCompare groupCompare owners) alone ran
      exact guarding.caller_step own (Driven.step_some stepped).1

/-- Both provided combiners are folds of how the calls of the slots end, and one throws
`no_slots_error` exactly where the other returns nothing. -/
theorem provided_combiners_fold (i : InvocationId) :
    (optionalLastValue σ.Result).Folds i (fun value => .returns value) ∧
    (lastValue σ.Result).Folds i (fun value => value.elim .noSlotsError .returns) ∧
    ∀ value : Option σ.Result,
      ((lastValue σ.Result).answer value = .noSlotsError ↔
        (optionalLastValue σ.Result).answer value = .returns none) ∧
      ∀ result, (lastValue σ.Result).answer value = .returns result ↔
        (optionalLastValue σ.Result).answer value = .returns (some result) := by
  refine ⟨optionalLastValue_proper.folds i, ?_, ?_⟩
  · have same : (lastValue σ.Result).answer = fun value => value.elim .noSlotsError .returns := by
      funext value
      cases value <;> rfl
    rw [← same]
    exact lastValue_proper.folds i
  · intro value
    cases value <;> simp [lastValue, optionalLastValue]

/-- Three connections; the first slot returns, the second throws `expired_slot`, and the
third is disconnected by the first while it runs. -/
def expireSecond : List (Action natSignal) :=
  [connectBack 10, .section, connectBack 11, .section, .section, connectBack 12, .section,
    .section, .section, .invoke, .section, .section, .lockNext 0, .section, .dereference 0,
    .disconnect 2, .slotReturns 0 5, .increment 0, .lockNext 0, .section, .dereference 0,
    .slotThrows 0 true, .increment 0, .lockNext 0, .section, .reachEnd 0, .finish 0]

def optionalStart : Driven natSignal (Option Nat) :=
  .construct (optionalLastValue Nat) 0 (fun a b => decide (a < b)) (fun a b => decide (a < b))
    fun _ => 0

theorem expireSecond_folds :
    ∃ d : Driven natSignal (Option Nat),
      Runs.run (Driven.step (optionalLastValue Nat) 0) optionalStart expireSecond = some d ∧
        d.point = .leave (.returns (some 5)) ∧
        World.Folded (fun value => .returns value) 0
          (Driven.events (optionalLastValue Nat) 0 optionalStart expireSecond)
          (Driven.disconnected (optionalLastValue Nat) 0 optionalStart expireSecond) d := by
  have ends : (Runs.run (Driven.step (optionalLastValue Nat) 0) optionalStart expireSecond).map
      (fun d => (d.point, d.world.fault)) =
        some (.leave (.returns (some 5)), none) := by decide +kernel
  obtain ⟨d, ran, facts⟩ := Option.map_eq_some_iff.mp ends
  have folds := (provided_combiners_fold (σ := natSignal) 0).1 _ _ _ _ expireSecond d ran
  exact ⟨d, ran, congrArg Prod.fst facts, (folds.1 (congrArg Prod.snd facts)).1⟩

end Signals2
