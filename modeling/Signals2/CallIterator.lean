/-
The slot call iterator as the combiner sees it: where it stands, the calls it makes
and how they end, what repeated dereferences yield.  Nothing is assumed about the
combiner, the slots or anybody else; a history goes as far as the first fault.
-/

import Mathlib.Data.List.Induction
import Signals2.CallHistory
import Signals2.ListChanges
import Signals2.TrackedObjects

namespace Signals2

open LinkedLists

variable {σ : SignalTemplate}

inductive IteratorEvent (Result : Type) where
  | start (snapshot : List BodyId)
  | decide (b : BodyId) (callable : Bool)
  | call (b : BodyId)
  | returns (b : BodyId) (result : Result)
  | throws (b : BodyId) (expiredSlot : Bool)
  | yields (b : BodyId) (result : Result)
  | increment (b : BodyId)

namespace IteratorEvent

variable {Result : Type}

def ofCallEvent : CallEvent → IteratorEvent Result
  | .start snapshot => .start snapshot
  | .decide b callable => .decide b callable
  | .call b => .call b

def isCall (b : BodyId) : IteratorEvent Result → Bool
  | .call c => c = b
  | _ => false

def isReturn (b : BodyId) : IteratorEvent Result → Bool
  | .returns c _ => c = b
  | _ => false

def isThrow (b : BodyId) : IteratorEvent Result → Bool
  | .throws c _ => c = b
  | _ => false

/-- The positions that a search has examined, in the order of the visits. -/
def decided (events : List (IteratorEvent Result)) : List BodyId :=
  events.filterMap fun event =>
    match event with
    | .decide b _ => some b
    | _ => none

/-- The callable position that the iterator stands on. -/
def standing (events : List (IteratorEvent Result)) : Option BodyId :=
  events.foldl (fun here event =>
    match event with
    | .decide b callable => if callable then some b else none
    | .increment _ => none
    | _ => here) none

def snapshot : List (IteratorEvent Result) → List BodyId
  | .start bodies :: _ => bodies
  | _ => []

/-- What may happen next: each position is new and entered once the last one has been
left, a position is called only after all its calls threw, and a dereference that does
not call yields what a call at the same position returned. -/
def Lawful (before : List (IteratorEvent Result)) : IteratorEvent Result → Prop
  | .start _ => before = []
  | .decide b _ => b ∉ decided before ∧ standing before = none
  | .call b => standing before = some b ∧ before.countP (isReturn b) = 0 ∧
      before.countP (isCall b) = before.countP (isThrow b)
  | .returns b _ => standing before = some b ∧ before.countP (isReturn b) = 0 ∧
      before.countP (isCall b) = before.countP (isThrow b) + 1
  | .throws b _ => standing before = some b ∧ before.countP (isReturn b) = 0 ∧
      before.countP (isCall b) = before.countP (isThrow b) + 1
  | .yields b result => standing before = some b ∧ .returns b result ∈ before
  | .increment b => standing before = some b ∧
      before.countP (isCall b) = before.countP (isThrow b) + before.countP (isReturn b)

variable {events : List (IteratorEvent Result)} {event : IteratorEvent Result} {b : BodyId}

theorem decided_append (first second : List (IteratorEvent Result)) :
    decided (first ++ second) = decided first ++ decided second := List.filterMap_append

theorem standing_append (first second : List (IteratorEvent Result)) :
    standing (first ++ second) = second.foldl (fun here event =>
      match event with
      | .decide b callable => if callable then some b else none
      | .increment _ => none
      | _ => here) (standing first) := List.foldl_append

theorem standing_decided (here : standing events = some b) : b ∈ decided events := by
  induction events using List.reverseRecOn with
  | nil => cases here
  | append_singleton earlier last ih =>
      rw [standing_append] at here
      rw [decided_append]
      cases last with
      | decide c callable =>
          cases callable with
          | false => cases here
          | true =>
              cases here
              simp [decided]
      | increment c => cases here
      | _ => exact List.mem_append_left _ (ih here)

theorem decided_nodup (along : Runs.Along Lawful events) : (decided events).Nodup := by
  induction events using List.reverseRecOn with
  | nil => exact List.nodup_nil
  | append_singleton earlier last ih =>
      have before := ih along.init
      rw [decided_append]
      cases last with
      | decide b callable =>
          have new := (along earlier (.decide b callable) [] rfl).1
          rw [List.nodup_append]
          refine ⟨before, List.nodup_singleton b, ?_⟩
          intro other member c same
          cases List.mem_singleton.mp same
          intro equal
          exact new (equal ▸ member)
      | _ => simpa [decided] using before

theorem returned_once (along : Runs.Along Lawful events) (b : BodyId) :
    events.countP (isReturn b) ≤ 1 := by
  induction events using List.reverseRecOn with
  | nil => exact Nat.zero_le 1
  | append_singleton earlier last ih =>
      rw [List.countP_append, List.countP_singleton]
      cases returned : isReturn b last with
      | false => simpa using ih along.init
      | true =>
          cases last with
          | returns c result =>
              have same : c = b := by simpa [isReturn] using returned
              subst same
              have none := (along earlier (.returns c result) [] rfl).2.1
              simp [none]
          | _ => cases returned

/-- Before the search has examined a position nothing happens there. -/
theorem undecided_idle (along : Runs.Along Lawful events) (new : b ∉ decided events) :
    events.countP (isCall b) = 0 ∧ events.countP (isReturn b) = 0 ∧
      events.countP (isThrow b) = 0 := by
  have absent : ∀ event ∈ events, isCall b event = false ∧ isReturn b event = false ∧
      isThrow b event = false := by
    intro event member
    obtain ⟨before, after, split, law⟩ := along.of_mem member
    have stood : standing before ≠ some b := by
      intro here
      apply new
      rw [split, decided_append]
      exact List.mem_append_left _ (standing_decided here)
    cases event with
    | call c =>
        have different : c ≠ b := fun same => stood (same ▸ law.1)
        simp [isCall, isReturn, isThrow, different]
    | returns c result =>
        have different : c ≠ b := fun same => stood (same ▸ law.1)
        simp [isCall, isReturn, isThrow, different]
    | throws c expiredSlot =>
        have different : c ≠ b := fun same => stood (same ▸ law.1)
        simp [isCall, isReturn, isThrow, different]
    | _ => simp [isCall, isReturn, isThrow]
  refine ⟨?_, ?_, ?_⟩
  · exact List.countP_eq_zero.mpr fun event member => by simp [(absent event member).1]
  · exact List.countP_eq_zero.mpr fun event member => by simp [(absent event member).2.1]
  · exact List.countP_eq_zero.mpr fun event member => by simp [(absent event member).2.2]

end IteratorEvent

/-- The invocation whose combiner, or whose slot, an action comes from. -/
def Action.caller : Action σ → Option InvocationId
  | .dereference i => some i
  | .slotReturns i _ => some i
  | .slotThrows i _ => some i
  | .increment i => some i
  | _ => none

namespace World

variable {w w' : World σ} {a : Action σ} {i : InvocationId} {inv : Invocation σ}

/-! ### Events -/

/-- How a dereference ends, and the increments. -/
def outcomeEvents (i : InvocationId) (w : World σ) (a : Action σ) :
    List (IteratorEvent σ.Result) :=
  match w.invocations[i]? with
  | none => []
  | some inv =>
      match inv.activeSlot, a with
      | some b, .dereference j =>
          if j = i then (inv.result.map (IteratorEvent.yields b)).toList else []
      | some b, .slotReturns j result => if j = i then [.returns b result] else []
      | some b, .slotThrows j expiredSlot => if j = i then [.throws b expiredSlot] else []
      | some b, .increment j => if j = i then [.increment b] else []
      | _, _ => []

def iteratorEvents (i : InvocationId) (w : World σ) (a : Action σ) :
    List (IteratorEvent σ.Result) :=
  match w.step a with
  | none => []
  | some w' =>
      if w'.fault.isSome then []
      else (seen i w w').map .ofCallEvent ++ outcomeEvents i w a

theorem outcomeEvents_other (other : a.caller ≠ some i) : outcomeEvents i w a = [] := by
  unfold outcomeEvents
  split
  · rfl
  · split
    · exact if_neg fun same => other (congrArg some same)
    · exact if_neg fun same => other (congrArg some same)
    · exact if_neg fun same => other (congrArg some same)
    · exact if_neg fun same => other (congrArg some same)
    · rfl

/-! ### The steps of the combiner and of the slot -/

theorem step_dereference (stepped : w.step (.dereference i) = some w') (sound : w'.fault = none) :
    ∃ inv, w.invocations[i]? = some inv ∧ inv.phase = .ready ∧ inv.iter.node ≠ none ∧
      (inv.result ≠ none ∧ w' = w ∨ inv.result = none ∧
        ∃ b, w.bodyAt inv.localState inv.iter = some b ∧
          w' = w.setInvocation i { inv with phase := .running }) := by
  unfold step at stepped
  split at stepped
  · cases stepped
  · simp only [dereference] at stepped
    split at stepped
    · cases stepped
    · rename_i inv found
      split at stepped
      · rename_i guard
        refine ⟨inv, found, guard.1, guard.2, ?_⟩
        split at stepped
        · rename_i cached
          cases stepped
          exact .inl ⟨Option.isSome_iff_ne_none.mp cached, rfl⟩
        · rename_i empty
          refine .inr ⟨by simpa using empty, ?_⟩
          split at stepped
          · cases stepped
            cases sound
          · rename_i b here
            refine ⟨b, here, ?_⟩
            split at stepped
            · cases stepped
              cases sound
            · split at stepped
              · cases stepped
                rfl
              · split at stepped
                · cases stepped
                  rfl
                · cases stepped
                  cases sound
      · cases stepped

theorem step_slotReturns {result : σ.Result} (stepped : w.step (.slotReturns i result) = some w') :
    ∃ inv, w.invocations[i]? = some inv ∧ inv.phase = .running ∧
      w' = w.setInvocation i { inv with phase := .ready, result := some result } := by
  unfold step at stepped
  split at stepped
  · cases stepped
  · simp only [slotReturns] at stepped
    split at stepped
    · cases stepped
    · rename_i inv found
      split at stepped
      · rename_i running
        cases stepped
        exact ⟨inv, found, running, rfl⟩
      · cases stepped

/-- The connection at the position is disconnected for `expired_slot`, and no other. -/
theorem step_slotThrows {expiredSlot : Bool}
    (stepped : w.step (.slotThrows i expiredSlot) = some w') (sound : w'.fault = none) :
    ∃ inv, w.invocations[i]? = some inv ∧ inv.phase = .running ∧
      (expiredSlot = false ∧ w' = w.setInvocation i { inv with phase := .ready } ∨
        expiredSlot = true ∧ w.critical = none ∧
          ∃ b, w.bodyAt inv.localState inv.iter = some b ∧
            w' = ((w.setInvocation i { inv with phase := .ready }).nolockDisconnect b).unlock) := by
  unfold step at stepped
  split at stepped
  · cases stepped
  · simp only [slotThrows] at stepped
    split at stepped
    · cases stepped
    · rename_i inv found
      split at stepped
      · rename_i running
        refine ⟨inv, found, running, ?_⟩
        split at stepped
        · rename_i expired
          right
          split at stepped
          · cases stepped
          · rename_i free
            split at stepped
            · cases stepped
              cases sound
            · rename_i b here
              cases stepped
              exact ⟨expired, by simpa using free, b, here, rfl⟩
        · rename_i other
          cases stepped
          exact .inl ⟨by simpa using other, rfl⟩
      · cases stepped

theorem step_increment (stepped : w.step (.increment i) = some w') (sound : w'.fault = none) :
    ∃ inv b, w.invocations[i]? = some inv ∧ inv.phase = .ready ∧ inv.iter.node ≠ none ∧
      w.bodyAt inv.localState inv.iter = some b ∧
      w' = w.setInvocation i
        { inv with
          iter := w.iteratorAfter inv.localState inv.iter
          result := none
          phase := if w.iteratorAfter inv.localState inv.iter = inv.callableIter then .ready
            else .searching } := by
  unfold step at stepped
  split at stepped
  · cases stepped
  · simp only [increment] at stepped
    split at stepped
    · cases stepped
    · rename_i inv found
      split at stepped
      · rename_i guard
        split at stepped
        · cases stepped
          cases sound
        · rename_i here
          cases stepped
          obtain ⟨b, there⟩ := Option.ne_none_iff_exists'.mp here
          exact ⟨inv, b, found, guard.1, guard.2, there, rfl⟩
      · cases stepped

/-- A call starts at a dereference only. -/
theorem Effect.caller_of_call (effect : Effect w a w') {inv' : Invocation σ}
    (found : w.invocations[i]? = some inv) (found' : w'.invocations[i]? = some inv')
    (phase : inv.phase ≠ .running) (phase' : inv'.phase = .running) : a.caller = some i := by
  rcases effect.progress found found' with rfl | how
  · exact absurd phase' phase
  · cases how with
    | move move =>
        cases move with
        | call => rfl
        | clear => exact absurd phase' phase
        | increment =>
            dsimp only at phase'
            split at phase' <;> cases phase'
        | _ => cases phase'
    | insert => exact absurd phase' phase
    | skip b todo locked u critical ended blocked =>
        rw [show _ = inv.phase from counted_phase inv _] at phase'
        exact absurd phase' phase
    | _ => cases phase'

/-- While the critical section stays as it is, an invocation shows only its calls. -/
theorem seen_of_kept (found : w.invocations[i]? = some inv)
    (critical : w'.critical = w.critical) : seen i w w' = startedCalls i w w' := by
  have undecided : decideEvents i w w' = [] := by
    apply decideEvents_nil
    intro b todo locked grabbing ended
    rw [critical, grabbing] at ended
    cases ended
  simp only [seen, startEvents_old found, undecided, List.nil_append]

theorem seen_setInvocation (found : w.invocations[i]? = some inv) (inv' : Invocation σ) :
    seen i w (w.setInvocation i inv') = startedCalls i w (w.setInvocation i inv') :=
  seen_of_kept found rfl

theorem seen_decide {b : BodyId} {callable : Bool} (member : .decide b callable ∈ seen i w w') :
    w.sweeping = false := by
  unfold seen startEvents startedCalls at member
  rcases List.mem_append.mp member with earlier | call
  · rcases List.mem_append.mp earlier with start | decision
    · split at start
      · simp at start
      · cases start
    · unfold decideEvents at decision
      split at decision
      · rename_i critical _
        simp [sweeping, critical]
      · cases decision
  · split at call
    · split at call
      · simp at call
      · cases call
    · cases call

/-! ### The course of an invocation -/

open IteratorEvent

/-- The calls at the position that the iterator stands on. -/
structure Tally (inv : Invocation σ) (events : List (IteratorEvent σ.Result)) (b : BodyId) :
    Prop where
  running : inv.phase = .running → inv.result = none
  cached : ∀ result, inv.result = some result → .returns b result ∈ events
  returned : events.countP (isReturn b) = if inv.result.isSome then 1 else 0
  balance : events.countP (isCall b) = events.countP (isThrow b) +
    if inv.phase = .running ∨ inv.result.isSome then 1 else 0

/-- Where an invocation is after this history: `visited` are the positions that its
iterator has left behind, `here` is the callable one that it has come to since. -/
structure Midway (w : World σ) (inv : Invocation σ) (events : List (IteratorEvent σ.Result))
    (visited : List BodyId) (here : Option BodyId) : Prop where
  decided_eq : decided events = visited ++ here.toList
  standing_eq : standing events = here
  walk : ∀ s, inv.localState = some s →
    LinkedLists.Walk (snapshot events) visited (w.listOf s).list inv.iter
  stands : ∀ b, here = some b → ∀ s, inv.localState = some s →
    Stands (w.listOf s).list inv.iter b
  between : here = none → inv.result = none ∧ inv.phase ≠ .running ∧
    (inv.phase = .ready → inv.iter.node = none)
  committed : ∀ b, here = some b → inv.phase ≠ .searching ∧ inv.iter.node ≠ none ∧
    inv.activeSlot = some b ∧ inv.callableIter = inv.iter ∧ Tally inv events b

structure Course (w : World σ) (inv : Invocation σ) (events : List (IteratorEvent σ.Result)) :
    Prop where
  started : events ≠ []
  known : ∀ b, b ∈ snapshot events ∨ b ∈ decided events → b < w.nextBody
  underway : Working inv → ∃ visited here, Midway w inv events visited here

variable {inv' : Invocation σ} {events : List (IteratorEvent σ.Result)} {visited : List BodyId}
  {here : Option BodyId}

theorem snapshot_append (started : events ≠ []) (later : List (IteratorEvent σ.Result)) :
    snapshot (events ++ later) = snapshot events := by
  cases events with
  | nil => exact absurd rfl started
  | cons first rest => cases first <;> rfl

theorem Midway.member (underway : Midway w inv events visited here) {b : BodyId}
    (inside : b ∈ visited ∨ here = some b) : b ∈ decided events := by
  rw [underway.decided_eq]
  rcases inside with old | same
  · exact List.mem_append_left _ old
  · rw [same]
    exact List.mem_append_right _ (List.mem_singleton.mpr rfl)

/-- What others do to the list does not disturb the course. -/
theorem Midway.others (underway : Midway w inv events visited here)
    (known : ∀ b, b ∈ snapshot events ∨ b ∈ decided events → b < w.nextBody)
    (charted : w.Charted) (effect : Effect w a w') (found : w.invocations[i]? = some inv) :
    Midway w' inv events visited here := by
  have reader : ∀ s, inv.localState = some s → some s ∈ w.readers .invocation := fun s state =>
    List.mem_map.mpr ⟨inv, List.mem_of_getElem? found, state⟩
  have changed : ∀ s, inv.localState = some s →
      ListChange (w.listOf s).list w.nextBody (w'.listOf s).list := fun s state =>
    effect.list_change charted.sharing (charted.sharing.readers _ s (reader s state))
  have new : w.nextBody ∉ snapshot events ∧ w.nextBody ∉ decided events :=
    ⟨fun old => Nat.lt_irrefl _ (known _ (.inl old)),
      fun old => Nat.lt_irrefl _ (known _ (.inr old))⟩
  exact {
    underway with
    walk := by
      intro s state
      have walk := underway.walk s state
      have change := changed s state
      generalize (w'.listOf s).list = list' at change
      cases change with
      | same => exact walk
      | erase place => exact walk.erase (charted.distinct s (reader s state)) place
      | insert place =>
          exact walk.insert place (fun old => new.2 (underway.member (.inl old))) new.1
    stands := by
      intro b same s state
      have stands := underway.stands b same s state
      have change := changed s state
      generalize (w'.listOf s).list = list' at change
      cases change with
      | same => exact stands
      | erase place => exact stands.erase (charted.distinct s (reader s state)) place
      | insert place =>
          apply stands.insert
          intro equal
          exact new.2 (equal ▸ underway.member (.inr same)) }

theorem Course.others (course : Course w inv events) (charted : w.Charted)
    (effect : Effect w a w') (found : w.invocations[i]? = some inv) : Course w' inv events where
  started := course.started
  known b member := Nat.lt_of_lt_of_le (course.known b member) effect.nextBody_le
  underway working := by
    obtain ⟨visited, here, underway⟩ := course.underway working
    exact ⟨visited, here, underway.others course.known charted effect found⟩

/-- What the combiner does not see of the invocation may change. -/
theorem Course.tracked (course : Course w inv events) (trackedPtrs : List (Option ObjectId)) :
    Course w { inv with trackedPtrs := trackedPtrs } events where
  started := course.started
  known := course.known
  underway working := by
    obtain ⟨visited, here, underway⟩ := course.underway working
    refine ⟨visited, here, { underway with committed := ?_ }⟩
    intro b same
    obtain ⟨searching, inside, slot, at_, tally⟩ := underway.committed b same
    exact ⟨searching, inside, slot, at_, { tally with }⟩

/-- An invocation that has left its combiner makes no more history. -/
theorem Course.leave (course : Course w inv events) (stopped : ¬ Working inv') :
    Course w inv' events where
  started := course.started
  known := course.known
  underway working := absurd working stopped

/-- The search has come to the end. -/
theorem Course.reachEnd (course : Course w inv events) (phase : inv.phase = .searching)
    (atEnd : inv.iter.node = none) (callableIter : Iterator) (activeSlot : Option BodyId) :
    Course w { inv with phase := .ready, callableIter := callableIter, activeSlot := activeSlot }
      events where
  started := course.started
  known := course.known
  underway _ := by
    obtain ⟨visited, here, underway⟩ := course.underway (.inl phase)
    have idle : here = none := by
      cases here with
      | none => rfl
      | some b => exact absurd phase (underway.committed b rfl).1
    subst idle
    refine ⟨visited, none, ?_⟩
    exact {
      decided_eq := underway.decided_eq
      standing_eq := underway.standing_eq
      walk := underway.walk
      stands := fun b impossible => by cases impossible
      between := fun _ => ⟨(underway.between rfl).1, (by simp), fun _ => atEnd⟩
      committed := fun b impossible => by cases impossible }

/-- An invocation starts at the beginning of the current list. -/
theorem Course.start {impl : SignalImpl} (charted : w.Charted)
    (lists : ∀ s, w'.listOf s = w.listOf s) (bodies : w.nextBody ≤ w'.nextBody) :
    Course w' (w.newInvocation impl) [.start (w.heap.connectionBodies impl).list.values] where
  started := by simp
  known b member := by
    rcases member with old | impossible
    · exact Nat.lt_of_lt_of_le (charted.listed b ⟨_, old⟩) bodies
    · cases impossible
  underway _ := by
    refine ⟨[], none, ?_⟩
    exact {
      decided_eq := rfl
      standing_eq := rfl
      walk := by
        intro s state
        cases state
        rw [lists]
        exact .begin
      stands := fun b impossible => by cases impossible
      between := by
        intro _
        refine ⟨rfl, ?_, ?_⟩
        · simp only [newInvocation]
          split <;> simp
        · intro ready
          simp only [newInvocation] at ready ⊢
          split at ready
          · rename_i empty
            rw [empty]
            rfl
          · cases ready
      committed := fun b impossible => by cases impossible }

/-! ### What the invocation itself does -/

theorem bodyAt_some {localState : Option StateId} {it : Iterator} {b : BodyId}
    (found : w.bodyAt localState it = some b) :
    ∃ s, localState = some s ∧ (w.listOf s).list.value? it = some b := by
  cases localState with
  | none => cases found
  | some s => exact ⟨s, rfl, found⟩

@[simp] theorem decided_decide (b : BodyId) (callable : Bool) :
    decided (events ++ [.decide b callable]) = decided events ++ [b] := by
  simp [decided]

@[simp] theorem standing_decide (b : BodyId) (callable : Bool) :
    standing (events ++ [.decide b callable]) = if callable then some b else none := by
  simp [standing]

/-- While it searches, no callable position is held and the next one is new. -/
theorem Course.searched (course : Course w inv events) (phase : inv.phase = .searching) :
    ∃ visited, Midway w inv events visited none ∧ standing events = none ∧
      ∀ b, w.bodyAt inv.localState inv.iter = some b → b ∉ decided events := by
  obtain ⟨visited, here, underway⟩ := course.underway (.inl phase)
  cases here with
  | none =>
      refine ⟨visited, underway, underway.standing_eq, ?_⟩
      intro b found
      obtain ⟨s, state, at_⟩ := bodyAt_some found
      rw [underway.decided_eq, Option.toList_none, List.append_nil]
      exact (underway.walk s state).unvisited at_
  | some b => exact absurd phase (underway.committed b rfl).1

theorem Course.known_decide (course : Course w inv events) {b : BodyId} (below : b < w.nextBody)
    (callable : Bool) (c : BodyId) (member : c ∈ snapshot (events ++ [.decide b callable]) ∨
      c ∈ decided (events ++ [.decide b callable])) : c < w.nextBody := by
  rw [snapshot_append course.started, decided_decide] at member
  rcases member with old | member
  · exact course.known c (.inl old)
  · rcases List.mem_append.mp member with old | last
    · exact course.known c (.inr old)
    · cases List.mem_singleton.mp last
      exact below

theorem Course.commit (course : Course w inv events) (lawful : Runs.Along Lawful events)
    (phase : inv.phase = .searching) {b : BodyId}
    (found : w.bodyAt inv.localState inv.iter = some b) (below : b < w.nextBody)
    (phase' : inv'.phase = .ready) (state : inv'.localState = inv.localState)
    (iter : inv'.iter = inv.iter) (result : inv'.result = inv.result)
    (active : inv'.activeSlot = some b) (callable : inv'.callableIter = inv.iter) :
    Lawful events (.decide b true) ∧ Course w inv' (events ++ [.decide b true]) := by
  obtain ⟨visited, underway, idle, fresh⟩ := course.searched phase
  have new := fresh b found
  obtain ⟨calls, returns, throws⟩ := undecided_idle lawful new
  have none : inv'.result = none := result.trans (underway.between rfl).1
  refine ⟨⟨new, idle⟩, ?_⟩
  exact {
    started := by simp
    known := course.known_decide below true
    underway := by
      intro _
      refine ⟨visited, some b, ?_⟩
      exact {
        decided_eq := by
          have before := underway.decided_eq
          simp only [Option.toList_none, List.append_nil] at before
          rw [decided_decide, before]
          rfl
        standing_eq := by simp
        walk := by
          rw [snapshot_append course.started, state, iter]
          exact underway.walk
        stands := by
          intro c same s held
          cases same
          rw [iter]
          obtain ⟨s', held', at_⟩ := bodyAt_some found
          cases held'.symm.trans (state.symm.trans held)
          exact .on at_
        between := fun impossible => by cases impossible
        committed := by
          intro c same
          cases same
          obtain ⟨s, held, at_⟩ := bodyAt_some found
          refine ⟨by simp [phase'], ?_, active, callable.trans iter.symm, ?_⟩
          · rw [iter]
            exact node_of_value? at_
          · constructor
            · exact fun _ => none
            · intro value cached
              rw [none] at cached
              cases cached
            · simp [none, returns, isReturn]
            · simp [none, calls, throws, isCall, isThrow, phase'] } }

theorem Course.skip (course : Course w inv events) (charted : w.Charted)
    (member : inv ∈ w.invocations) (phase : inv.phase = .searching) {b : BodyId}
    (found : w.bodyAt inv.localState inv.iter = some b) (below : b < w.nextBody)
    (phase' : inv'.phase = .searching) (state : inv'.localState = inv.localState)
    (iter : inv'.iter = w.iteratorAfter inv.localState inv.iter)
    (result : inv'.result = inv.result) :
    Lawful events (.decide b false) ∧ Course w inv' (events ++ [.decide b false]) := by
  obtain ⟨visited, underway, idle, fresh⟩ := course.searched phase
  refine ⟨⟨fresh b found, idle⟩, ?_⟩
  exact {
    started := by simp
    known := course.known_decide below false
    underway := by
      intro _
      refine ⟨visited ++ [b], none, ?_⟩
      exact {
        decided_eq := by
          have before := underway.decided_eq
          simp only [Option.toList_none, List.append_nil] at before ⊢
          rw [decided_decide, before]
        standing_eq := by simp
        walk := by
          intro s held
          obtain ⟨s', held', at_⟩ := bodyAt_some found
          have same : some s = some s' := held.symm.trans (state.trans held')
          cases same
          rw [snapshot_append course.started, iter, held']
          have reader : some s ∈ w.readers .invocation := List.mem_map.mpr ⟨inv, member, held'⟩
          exact (underway.walk s held').advance (charted.distinct s reader) at_
        stands := fun c impossible => by cases impossible
        between := by
          intro _
          refine ⟨result.trans (underway.between rfl).1, by simp [phase'], by simp [phase']⟩
        committed := fun c impossible => by cases impossible } }

/-- A combiner in control, or a slot that is running, is at the position held. -/
theorem Course.held (course : Course w inv events)
    (phase : inv.phase = .ready ∧ inv.iter.node ≠ none ∨ inv.phase = .running) :
    ∃ visited b, Midway w inv events visited (some b) ∧ standing events = some b ∧
      inv.activeSlot = some b ∧ inv.callableIter = inv.iter ∧ Tally inv events b := by
  have working : Working inv := .inr (phase.imp And.left id)
  obtain ⟨visited, here, underway⟩ := course.underway working
  cases here with
  | none =>
      obtain ⟨_, quiet, atEnd⟩ := underway.between rfl
      rcases phase with ⟨ready, inside⟩ | running
      · exact absurd (atEnd ready) inside
      · exact absurd running quiet
  | some b =>
      obtain ⟨_, _, active, callable, tally⟩ := underway.committed b rfl
      exact ⟨visited, b, underway, underway.standing_eq, active, callable, tally⟩

/-- An event at the position held, after which it is still held. -/
theorem Course.event (course : Course w inv events) {b : BodyId}
    (underway : Midway w inv events visited (some b)) (event : IteratorEvent σ.Result)
    (quiet : decided [event] = []) (still : standing (events ++ [event]) = standing events)
    (state : inv'.localState = inv.localState) (iter : inv'.iter = inv.iter)
    (active : inv'.activeSlot = inv.activeSlot) (callable : inv'.callableIter = inv.callableIter)
    (phase' : inv'.phase ≠ .searching) (tally : Tally inv' (events ++ [event]) b) :
    Course w inv' (events ++ [event]) where
  started := by simp
  known c member := by
    rw [snapshot_append course.started, decided_append, quiet, List.append_nil] at member
    exact course.known c member
  underway _ := by
    obtain ⟨_, inside, slot, at_, _⟩ := underway.committed b rfl
    refine ⟨visited, some b, ?_⟩
    exact {
      decided_eq := by
        rw [decided_append, quiet, List.append_nil]
        exact underway.decided_eq
      standing_eq := still.trans underway.standing_eq
      walk := by
        rw [snapshot_append course.started, state, iter]
        exact underway.walk
      stands := by
        rw [state, iter]
        exact underway.stands
      between := fun impossible => by cases impossible
      committed := by
        intro c same
        cases same
        rw [iter, active, callable]
        exact ⟨phase', inside, slot, at_, tally⟩ }

theorem Course.call (course : Course w inv events) (phase : inv.phase = .ready)
    (inside : inv.iter.node ≠ none) (first : inv.result = none) {b : BodyId}
    (found : w.bodyAt inv.localState inv.iter = some b) :
    Lawful events (.call b) ∧ Course w { inv with phase := .running } (events ++ [.call b]) := by
  obtain ⟨visited, c, underway, stood, _, _, tally⟩ := course.held (.inl ⟨phase, inside⟩)
  obtain ⟨s, state, at_⟩ := bodyAt_some found
  have same : b = c := (underway.stands c rfl s state).unique at_
  subst same
  have balance := tally.balance
  have returned := tally.returned
  simp only [phase, first, reduceCtorEq, Option.isSome_none, Bool.false_eq_true, or_self,
    if_false, Nat.add_zero] at balance returned
  refine ⟨⟨stood, returned, balance⟩, course.event underway _ rfl ?_ rfl rfl rfl rfl (by simp) ?_⟩
  · simp [standing]
  · constructor
    · exact fun _ => first
    · intro value cached
      rw [first] at cached
      cases cached
    · simp [isReturn, returned, first]
    · simp [isCall, isThrow, balance]

theorem Tally.while_running {b : BodyId} (tally : Tally inv events b)
    (phase : inv.phase = .running) :
    inv.result = none ∧ events.countP (isReturn b) = 0 ∧
      events.countP (isCall b) = events.countP (isThrow b) + 1 := by
  have empty := tally.running phase
  have balance := tally.balance
  have returned := tally.returned
  simp only [phase, empty, true_or, if_true, Option.isSome_none, Bool.false_eq_true,
    if_false] at balance returned
  exact ⟨empty, returned, balance⟩

theorem Course.returns (course : Course w inv events) (phase : inv.phase = .running)
    (result : σ.Result) :
    ∃ b, inv.activeSlot = some b ∧ Lawful events (.returns b result) ∧
      Course w { inv with phase := .ready, result := some result }
        (events ++ [.returns b result]) := by
  obtain ⟨visited, b, underway, stood, active, _, tally⟩ := course.held (.inr phase)
  obtain ⟨_, returned, balance⟩ := tally.while_running phase
  refine ⟨b, active, ⟨stood, returned, balance⟩,
    course.event underway _ rfl ?_ rfl rfl rfl rfl (by simp) ?_⟩
  · simp [standing]
  · constructor
    · intro running
      cases running
    · intro value cached
      cases cached
      simp
    · simp [isReturn, returned]
    · simp [isCall, isThrow, balance]

theorem Course.throws (course : Course w inv events) (phase : inv.phase = .running)
    (expiredSlot : Bool) :
    ∃ b, inv.activeSlot = some b ∧ Lawful events (.throws b expiredSlot) ∧
      Course w { inv with phase := .ready } (events ++ [.throws b expiredSlot]) := by
  obtain ⟨visited, b, underway, stood, active, _, tally⟩ := course.held (.inr phase)
  obtain ⟨empty, returned, balance⟩ := tally.while_running phase
  refine ⟨b, active, ⟨stood, returned, balance⟩,
    course.event underway _ rfl ?_ rfl rfl rfl rfl (by simp) ?_⟩
  · simp [standing]
  · constructor
    · intro running
      cases running
    · intro value cached
      rw [empty] at cached
      cases cached
    · simp [isReturn, returned, empty]
    · simp [isCall, isThrow, balance, empty]

theorem Course.yields (course : Course w inv events) (phase : inv.phase = .ready)
    (inside : inv.iter.node ≠ none) {result : σ.Result} (cached : inv.result = some result) :
    ∃ b, inv.activeSlot = some b ∧ Lawful events (.yields b result) ∧
      Course w inv (events ++ [.yields b result]) := by
  obtain ⟨visited, b, underway, stood, active, _, tally⟩ := course.held (.inl ⟨phase, inside⟩)
  refine ⟨b, active, ⟨stood, tally.cached result cached⟩,
    course.event underway _ rfl ?_ rfl rfl rfl rfl (by simp [phase]) ?_⟩
  · simp [standing]
  · constructor
    · exact tally.running
    · intro value held
      exact List.mem_append_left _ (tally.cached value held)
    · simpa [isReturn] using tally.returned
    · simpa [isCall, isThrow] using tally.balance

theorem Course.increment (course : Course w inv events) (charted : w.Charted)
    (member : inv ∈ w.invocations) (phase : inv.phase = .ready) (inside : inv.iter.node ≠ none)
    {b : BodyId} (found : w.bodyAt inv.localState inv.iter = some b) :
    inv.activeSlot = some b ∧ Lawful events (.increment b) ∧
      Course w
        { inv with
          iter := w.iteratorAfter inv.localState inv.iter
          result := none
          phase := if w.iteratorAfter inv.localState inv.iter = inv.callableIter then .ready
            else .searching }
        (events ++ [.increment b]) := by
  obtain ⟨visited, c, underway, stood, active, callable, tally⟩ :=
    course.held (.inl ⟨phase, inside⟩)
  obtain ⟨s, state, at_⟩ := bodyAt_some found
  have same : b = c := (underway.stands c rfl s state).unique at_
  subst same
  have reader : some s ∈ w.readers .invocation := List.mem_map.mpr ⟨inv, member, state⟩
  have moved : w.iteratorAfter inv.localState inv.iter ≠ inv.callableIter := by
    rw [callable, state]
    exact next_ne at_
  rw [if_neg moved]
  refine ⟨active, ⟨stood, ?_⟩, ?_⟩
  · have balance := tally.balance
    have returned := tally.returned
    simp only [phase, reduceCtorEq, false_or] at balance
    rw [balance, returned]
  · exact {
      started := by simp
      known := by
        intro c member
        rw [snapshot_append course.started, decided_append] at member
        simpa [decided] using course.known c (by simpa [decided] using member)
      underway := by
        intro _
        refine ⟨visited ++ [b], none, ?_⟩
        exact {
          decided_eq := by
            rw [decided_append, underway.decided_eq]
            simp [decided]
          standing_eq := by simp [standing]
          walk := by
            intro s' held
            cases state.symm.trans held
            rw [snapshot_append course.started, state]
            exact (underway.walk s state).advance (charted.distinct s reader) at_
          stands := fun c impossible => by cases impossible
          between := fun _ => ⟨rfl, (by simp), (by simp)⟩
          committed := fun c impossible => by cases impossible } }

/-! ### Whole runs -/

/-- A search that finds a callable position holds it. -/
theorem Effect.committed (effect : Effect w a w') (found : w.invocations[i]? = some inv)
    (found' : w'.invocations[i]? = some inv') (phase : inv.phase = .searching)
    (phase' : inv'.phase = .ready) (placed : w.SectionPlaced) (inside : inv.iter.node ≠ none) :
    ∃ b, w.bodyAt inv.localState inv.iter = some b ∧ inv'.activeSlot = some b ∧
      inv'.callableIter = inv.iter := by
  rcases effect.progress found found' with rfl | how
  · rw [phase] at phase'
    cases phase'
  · cases how with
    | commit b locked critical connected unblocked =>
        exact ⟨b, (placed.grab critical found).2.2, rfl, rfl⟩
    | reachEnd free searching atEnd callable => exact absurd atEnd inside
    | insert =>
        rw [show _ = inv.phase from rfl, phase] at phase'
        cases phase'
    | skip =>
        rw [show _ = inv.phase from counted_phase inv _, phase] at phase'
        cases phase'
    | destroyCache => cases phase'
    | forced => cases phase'
    | throwExpired running =>
        rw [phase] at running
        cases running
    | move move =>
        cases move with
        | clear =>
            rw [show _ = inv.phase from rfl, phase] at phase'
            cases phase'
        | reachEnd searching atEnd idle => exact absurd atEnd inside
        | returns result running =>
            rw [phase] at running
            cases running
        | throws running =>
            rw [phase] at running
            cases running
        | increment ready =>
            rw [phase] at ready
            cases ready
        | _ => cases phase'

/-- What is known of the invocation after this history; nothing of its state once a
fault has occurred. -/
structure Journal (i : InvocationId) (events : List (IteratorEvent σ.Result)) (w : World σ) :
    Prop where
  lawful : Runs.Along Lawful events
  charted : w.Charted
  absent : w.fault = none → w.invocations[i]? = none → events = []
  told : w.fault = none → ∀ inv, w.invocations[i]? = some inv → Course w inv events

theorem construct_journal (combiner : σ.Combiner)
    (defaultCompare groupCompare : σ.Group → σ.Group → Bool) (owners : ObjectId → Nat) :
    Journal i [] (World.construct combiner defaultCompare groupCompare owners) where
  lawful := .nil
  charted := construct_charted combiner defaultCompare groupCompare owners
  absent _ _ := rfl
  told _ inv found := by cases found

/-- The journal goes on with one event. -/
private theorem Journal.next (journal : Journal i events w) (charted : w'.Charted)
    {event : IteratorEvent σ.Result} (law : Lawful events event)
    (found' : w'.invocations[i]? = some inv') (course : Course w' inv' (events ++ [event])) :
    Journal i (events ++ [event]) w' where
  lawful := journal.lawful.snoc law
  charted := charted
  absent _ gone := by
    rw [found'] at gone
    cases gone
  told _ inv found := by
    cases found'.symm.trans found
    exact course

private theorem Journal.stay (journal : Journal i events w) (charted : w'.Charted)
    (found' : w'.invocations[i]? = some inv') (course : Course w' inv' events) :
    Journal i events w' where
  lawful := journal.lawful
  charted := charted
  absent _ gone := by
    rw [found'] at gone
    cases gone
  told _ inv found := by
    cases found'.symm.trans found
    exact course

theorem iteratorEvents_sound (stepped : w.step a = some w') (sound : w'.fault = none) :
    iteratorEvents i w a = (seen i w w').map .ofCallEvent ++ outcomeEvents i w a := by
  simp [iteratorEvents, stepped, sound]

theorem setInvocation_here (found : w.invocations[i]? = some inv) (inv' : Invocation σ) :
    (w.setInvocation i inv').invocations[i]? = some inv' :=
  List.getElem?_set_self (List.getElem?_eq_some_iff.mp found).1

/-- Only the list that the iterator walks matters. -/
theorem Course.congr (course : Course w inv events)
    (lists : ∀ s, inv.localState = some s → w'.listOf s = w.listOf s)
    (bodies : w.nextBody ≤ w'.nextBody) : Course w' inv events where
  started := course.started
  known b member := Nat.lt_of_lt_of_le (course.known b member) bodies
  underway working := by
    obtain ⟨visited, here, underway⟩ := course.underway working
    refine ⟨visited, here, { underway with walk := ?_, stands := ?_ }⟩
    · intro s state
      rw [lists s state]
      exact underway.walk s state
    · intro b same s state
      rw [lists s state]
      exact underway.stands b same s state

theorem Journal.dereference (journal : Journal i events w)
    (stepped : w.step (.dereference i) = some w') (sound : w'.fault = none) :
    ∃ inv b, w.invocations[i]? = some inv ∧ inv.phase = .ready ∧ inv.iter.node ≠ none ∧
      standing events = some b ∧
      ((∃ result, inv.result = some result ∧ w' = w ∧
          iteratorEvents i w (.dereference i) = [.yields b result]) ∨
        inv.result = none ∧ w' = w.setInvocation i { inv with phase := .running } ∧
          iteratorEvents i w (.dereference i) = [.call b]) ∧
      Journal i (events ++ iteratorEvents i w (.dereference i)) w' := by
  obtain ⟨before, effect⟩ := step_effect stepped
  have charted := journal.charted.step stepped
  have shown := iteratorEvents_sound (i := i) stepped sound
  obtain ⟨inv, found, ready, inside, how⟩ := step_dereference stepped sound
  have course := journal.told before inv found
  rcases how with ⟨full, rfl⟩ | ⟨empty, b, here, rfl⟩
  · obtain ⟨result, cached⟩ := Option.ne_none_iff_exists'.mp full
    obtain ⟨b, active, law, later⟩ := course.yields ready inside cached
    have quiet : seen i w' w' = [] := by
      rw [seen_of_kept found rfl]
      exact startedCalls_idle found found (.inr (by simp [ready]))
    have outcome : outcomeEvents i w' (.dereference i) = [.yields b result] := by
      simp [outcomeEvents, found, active, cached]
    rw [quiet, outcome] at shown
    refine ⟨inv, b, found, ready, inside, law.1, .inl ⟨result, cached, rfl, shown⟩, ?_⟩
    rw [shown]
    exact journal.next charted law found later
  · obtain ⟨law, later⟩ := course.call ready inside empty here
    have found' := setInvocation_here found { inv with phase := .running }
    have called : seen i w (w.setInvocation i { inv with phase := .running }) = [.call b] := by
      rw [seen_setInvocation found]
      simp [startedCalls, found, found', ready, here]
    have outcome : outcomeEvents i w (.dereference i) = [] := by
      cases active : inv.activeSlot with
      | none => simp [outcomeEvents, found, active]
      | some c => simp [outcomeEvents, found, active, empty]
    rw [called, outcome] at shown
    refine ⟨inv, b, found, ready, inside, law.1, .inr ⟨empty, rfl, shown⟩, ?_⟩
    rw [shown]
    exact journal.next charted law found' (later.congr (fun s _ => rfl) effect.nextBody_le)

theorem Journal.slotReturns (journal : Journal i events w) {result : σ.Result}
    (stepped : w.step (.slotReturns i result) = some w') (sound : w'.fault = none) :
    ∃ inv b, w.invocations[i]? = some inv ∧ inv.phase = .running ∧ standing events = some b ∧
      w' = w.setInvocation i { inv with phase := .ready, result := some result } ∧
      iteratorEvents i w (.slotReturns i result) = [.returns b result] ∧
      Journal i (events ++ iteratorEvents i w (.slotReturns i result)) w' := by
  obtain ⟨before, effect⟩ := step_effect stepped
  have charted := journal.charted.step stepped
  have shown := iteratorEvents_sound (i := i) stepped sound
  obtain ⟨inv, found, running, rfl⟩ := step_slotReturns stepped
  obtain ⟨b, active, law, later⟩ := (journal.told before inv found).returns running result
  have found' := setInvocation_here found
    { inv with phase := .ready, result := some result }
  have quiet : seen i w
      (w.setInvocation i { inv with phase := .ready, result := some result }) = [] := by
    rw [seen_setInvocation found]
    exact startedCalls_idle found found' (.inl running)
  have outcome : outcomeEvents i w (.slotReturns i result) = [.returns b result] := by
    simp [outcomeEvents, found, active]
  rw [quiet, outcome] at shown
  refine ⟨inv, b, found, running, law.1, rfl, shown, ?_⟩
  rw [shown]
  exact journal.next charted law found' (later.congr (fun s _ => rfl) effect.nextBody_le)

theorem Journal.slotThrows (journal : Journal i events w) {expiredSlot : Bool}
    (stepped : w.step (.slotThrows i expiredSlot) = some w') (sound : w'.fault = none) :
    ∃ inv b, w.invocations[i]? = some inv ∧ inv.phase = .running ∧ standing events = some b ∧
      w'.invocations[i]? = some { inv with phase := .ready } ∧
      iteratorEvents i w (.slotThrows i expiredSlot) = [.throws b expiredSlot] ∧
      Journal i (events ++ iteratorEvents i w (.slotThrows i expiredSlot)) w' := by
  obtain ⟨before, effect⟩ := step_effect stepped
  have charted := journal.charted.step stepped
  have shown := iteratorEvents_sound (i := i) stepped sound
  obtain ⟨inv, found, running, how⟩ := step_slotThrows stepped sound
  obtain ⟨b, active, law, later⟩ := (journal.told before inv found).throws running expiredSlot
  have kept : w'.invocations[i]? = some { inv with phase := .ready } ∧
      w'.critical = w.critical ∧ ∀ s, w'.listOf s = w.listOf s := by
    have found' := setInvocation_here found { inv with phase := .ready }
    rcases how with ⟨_, rfl⟩ | ⟨_, free, c, _, rfl⟩
    · exact ⟨found', rfl, fun s => rfl⟩
    · exact ⟨found', free.symm, fun s => rfl⟩
  have quiet : seen i w w' = [] := by
    rw [seen_of_kept found kept.2.1]
    exact startedCalls_idle found kept.1 (.inl running)
  have outcome : outcomeEvents i w (.slotThrows i expiredSlot) = [.throws b expiredSlot] := by
    simp [outcomeEvents, found, active]
  rw [quiet, outcome] at shown
  refine ⟨inv, b, found, running, law.1, kept.1, shown, ?_⟩
  rw [shown]
  exact journal.next charted law kept.1 (later.congr (fun s _ => kept.2.2 s) effect.nextBody_le)

theorem Journal.increment (journal : Journal i events w)
    (stepped : w.step (.increment i) = some w') (sound : w'.fault = none) :
    ∃ inv inv' b, w.invocations[i]? = some inv ∧ inv.phase = .ready ∧ standing events = some b ∧
      w' = w.setInvocation i inv' ∧ (inv'.phase = .searching ∨ inv'.phase = .ready) ∧
      inv'.result = none ∧ iteratorEvents i w (.increment i) = [.increment b] ∧
      Journal i (events ++ iteratorEvents i w (.increment i)) w' := by
  obtain ⟨before, effect⟩ := step_effect stepped
  have charted := journal.charted.step stepped
  have shown := iteratorEvents_sound (i := i) stepped sound
  obtain ⟨inv, b, found, ready, inside, here, rfl⟩ := step_increment stepped sound
  obtain ⟨active, law, later⟩ := (journal.told before inv found).increment journal.charted
    (List.mem_of_getElem? found) ready inside here
  generalize moved : ({ inv with
    iter := w.iteratorAfter inv.localState inv.iter
    result := none
    phase := if w.iteratorAfter inv.localState inv.iter = inv.callableIter then .ready
      else .searching } : Invocation σ) = inv' at later effect charted shown
  have phase' : inv'.phase = .searching ∨ inv'.phase = .ready := by
    rw [← moved]
    dsimp only
    split <;> simp
  have found' := setInvocation_here found inv'
  have quiet : seen i w (w.setInvocation i inv') = [] := by
    rw [seen_setInvocation found]
    exact startedCalls_idle found found' (.inr (by rcases phase' with is | is <;> simp [is]))
  have outcome : outcomeEvents i w (.increment i) = [.increment b] := by
    simp [outcomeEvents, found, active]
  rw [quiet, outcome] at shown
  refine ⟨inv, inv', b, found, ready, law.1, rfl, phase', by rw [← moved], shown, ?_⟩
  rw [shown]
  exact journal.next charted law found' (later.congr (fun s _ => rfl) effect.nextBody_le)

/-- What the library and other clients do. -/
private theorem Journal.other (journal : Journal i events w) (other : a.caller ≠ some i)
    (stepped : w.step a = some w') (sound : w'.fault = none) :
    Journal i (events ++ iteratorEvents i w a) w' := by
  obtain ⟨before, effect⟩ := step_effect stepped
  have charted := journal.charted.step stepped
  have placed := journal.charted.sectionPlaced
  have bodies := effect.nextBody_le
  have told := journal.told before
  rw [iteratorEvents_sound stepped sound, outcomeEvents_other other, List.append_nil]
  have observed : Observed i w a w' (seen i w w') := effect.observed placed
  have still : ∀ b callable, .decide b callable ∈ seen i w w' → ∀ inv,
      w.invocations[i]? = some inv → ∀ s, inv.localState = some s →
      w'.listOf s = w.listOf s := by
    intro b callable decides inv found s state
    have reader : some s ∈ w.readers .invocation :=
      List.mem_map.mpr ⟨inv, List.mem_of_getElem? found, state⟩
    exact journal.charted.sharing.list_kept effect.change (seen_decide decides) reader
  have below : ∀ (inv : Invocation σ) (b : BodyId), w.bodyAt inv.localState inv.iter = some b →
      b < w.nextBody := by
    intro inv b here
    obtain ⟨s, _, at_⟩ := bodyAt_some here
    exact journal.charted.listed b ⟨_, value?_mem at_⟩
  generalize seen i w w' = shown at observed still
  cases observed with
  | same kept =>
      rw [List.map_nil, List.append_nil]
      exact {
        lawful := journal.lawful
        charted := charted
        absent := fun _ gone => journal.absent before (kept.symm.trans gone)
        told := by
          intro _ inv found'
          have found := kept.symm.trans found'
          exact (told inv found).others journal.charted effect found }
  | start impl present absent joined lists =>
      have empty := journal.absent before absent
      subst empty
      exact journal.next charted rfl joined (.start journal.charted lists bodies)
  | commit inv inv' b found found' phase here phase' state iter result =>
      obtain ⟨s, _, at_⟩ := bodyAt_some here
      obtain ⟨c, there, active, callable⟩ :=
        effect.committed found found' phase phase' placed (by simp [node_of_value? at_])
      cases here.symm.trans there
      obtain ⟨law, later⟩ := (told inv found).commit journal.lawful phase here (below inv b here)
        phase' state iter result active callable
      refine journal.next charted law found' (later.congr ?_ bodies)
      rw [state]
      exact still b true (by simp) inv found
  | skip inv inv' b found found' phase here phase' state iter result =>
      obtain ⟨law, later⟩ := (told inv found).skip journal.charted (List.mem_of_getElem? found)
        phase here (below inv b here) phase' state iter result
      refine journal.next charted law found' (later.congr ?_ bodies)
      rw [state]
      exact still b false (by simp) inv found
  | call inv b found found' phase inside first here =>
      exact absurd (effect.caller_of_call found found' (by simp [phase]) rfl) other
  | aside inv inv' found found' how =>
      rw [List.map_nil, List.append_nil]
      have course := (told inv found).others journal.charted effect found
      refine journal.stay charted found' ?_
      cases how with
      | stay trackedPtrs => exact course.tracked trackedPtrs
      | reachEnd callableIter activeSlot phase atEnd =>
          exact course.reachEnd phase atEnd callableIter activeSlot
      | returns result phase => exact absurd rfl other
      | throws expiredSlot phase => exact absurd rfl other
      | increment phase inside => exact absurd rfl other
      | finish phase => exact course.leave (by simp [Working])
      | leave _ before after => exact course.leave after

theorem Journal.step (journal : Journal i events w) (stepped : w.step a = some w') :
    Journal i (events ++ iteratorEvents i w a) w' := by
  cases fault : w'.fault with
  | some failure =>
      have nothing : iteratorEvents i w a = [] := by simp [iteratorEvents, stepped, fault]
      rw [nothing, List.append_nil]
      exact {
        lawful := journal.lawful
        charted := journal.charted.step stepped
        absent := fun sound => by simp [fault] at sound
        told := fun sound => by simp [fault] at sound }
  | none =>
      by_cases own : a.caller = some i
      · cases a with
        | dereference j =>
            cases own
            obtain ⟨_, _, _, _, _, _, _, later⟩ := journal.dereference stepped fault
            exact later
        | slotReturns j result =>
            cases own
            obtain ⟨_, _, _, _, _, _, _, later⟩ := journal.slotReturns stepped fault
            exact later
        | slotThrows j expiredSlot =>
            cases own
            obtain ⟨_, _, _, _, _, _, _, later⟩ := journal.slotThrows stepped fault
            exact later
        | increment j =>
            cases own
            obtain ⟨_, _, _, _, _, _, _, _, _, _, later⟩ := journal.increment stepped fault
            exact later
        | _ => cases own
      · exact journal.other own stepped fault

theorem journal_run {combiner : σ.Combiner} {defaultCompare groupCompare : σ.Group → σ.Group → Bool}
    {owners : ObjectId → Nat} {actions : List (Action σ)}
    (ran : Runs.run World.step (World.construct combiner defaultCompare groupCompare owners)
      actions = some w) :
    Journal i (Runs.outputs World.step (iteratorEvents i)
      (World.construct combiner defaultCompare groupCompare owners) actions) w := by
  have steps : ∀ past (state : World σ) action next, Journal i past state → True →
      state.step action = some next → Journal i (past ++ iteratorEvents i state action) next :=
    fun past state action next journal _ stepped => journal.step stepped
  exact Runs.run_observed steps
    (construct_journal combiner defaultCompare groupCompare owners)
    (.of_forall fun _ _ _ => trivial) ran

/-! ### What the combiner can rely on -/

theorem Course.ready (course : Course w inv events) (phase : inv.phase = .ready) :
    inv.iter.node = none ↔ standing events = none := by
  obtain ⟨visited, here, underway⟩ := course.underway (.inr (.inl phase))
  rw [underway.standing_eq]
  cases here with
  | none => simp [(underway.between rfl).2.2 phase]
  | some b => simp [(underway.committed b rfl).2.1]

theorem Course.inOrder (course : Course w inv events) (charted : w.Charted)
    (member : inv ∈ w.invocations) (working : Working inv) {s : StateId}
    (state : inv.localState = some s) : InOrder (decided events) (w.listOf s).list.values := by
  obtain ⟨visited, here, underway⟩ := course.underway working
  have reader : some s ∈ w.readers .invocation := List.mem_map.mpr ⟨inv, member, state⟩
  rw [underway.decided_eq]
  cases here with
  | none =>
      rw [Option.toList_none, List.append_nil]
      exact (underway.walk s state).inOrder
  | some b =>
      exact (underway.walk s state).inOrder_standing (charted.distinct s reader)
        (underway.stands b rfl s state)

theorem Course.exhausted (course : Course w inv events) (phase : inv.phase = .ready)
    (atEnd : inv.iter.node = none) {s : StateId} (state : inv.localState = some s) {b : BodyId}
    (member : b ∈ (w.listOf s).list.values) (old : b ∈ snapshot events) : b ∈ decided events := by
  obtain ⟨visited, here, underway⟩ := course.underway (.inr (.inl phase))
  exact underway.member (.inl ((underway.walk s state).ended atEnd member old))

theorem nolockDisconnect_exactly (b c : BodyId) :
    ((w.nolockDisconnect b).bodies c).connected = ((w.bodies c).connected && !decide (c = b)) := by
  by_cases same : c = b
  · subst same
    rw [decide_eq_true rfl, Bool.not_true, Bool.and_false]
    exact BodyStore.nolockDisconnect_connected c
  · rw [decide_eq_false same, Bool.not_false, Bool.and_true]
    exact BodyStore.nolockDisconnect_other same

/-- An exception disconnects at most the position that the iterator stands on. -/
theorem Course.disconnects (course : Course w inv events) (found : w.invocations[i]? = some inv)
    {expiredSlot : Bool} (stepped : w.step (.slotThrows i expiredSlot) = some w')
    (sound : w'.fault = none) :
    ∃ b, standing events = some b ∧ ∀ c, (w'.bodies c).connected =
      ((w.bodies c).connected && !(expiredSlot && decide (c = b))) := by
  obtain ⟨inv', found', running, how⟩ := step_slotThrows stepped sound
  cases found.symm.trans found'
  obtain ⟨visited, b, underway, stood, active, _⟩ := course.held (.inr running)
  refine ⟨b, stood, fun c => ?_⟩
  rcases how with ⟨rfl, rfl⟩ | ⟨rfl, free, d, here, rfl⟩
  · simp [setInvocation]
  · obtain ⟨s, state, at_⟩ := bodyAt_some here
    have same : d = b := (underway.stands b rfl s state).unique at_
    subst same
    exact nolockDisconnect_exactly d c

/-- What the combiner can rely on after the history `events`. -/
structure Reliable (i : InvocationId) (events : List (IteratorEvent σ.Result)) (w : World σ) :
    Prop where
  lawful : Runs.Along Lawful events
  returnedOnce : ∀ b, events.countP (isReturn b) ≤ 1
  -- each position is visited once, in the order of the list
  visitedOnce : (decided events).Nodup
  inOrder : w.fault = none → ∀ inv, w.invocations[i]? = some inv → Working inv →
    ∀ s, inv.localState = some s →
      (w.listOf s).list.values.Nodup ∧ InOrder (decided events) (w.listOf s).list.values
  -- it compares equal to `last` exactly if no callable slot remains
  last : w.fault = none → ∀ inv, w.invocations[i]? = some inv → inv.phase = .ready →
    (inv.iter.node = none ↔ standing events = none) ∧
      (inv.iter.node = none → ∀ s, inv.localState = some s →
        ∀ b ∈ (w.listOf s).list.values, b ∈ snapshot events → b ∈ decided events)
  expired : ∀ expiredSlot w', w.step (.slotThrows i expiredSlot) = some w' → w'.fault = none →
    ∃ b, standing events = some b ∧ ∀ c, (w'.bodies c).connected =
      ((w.bodies c).connected && !(expiredSlot && decide (c = b)))

theorem Journal.reliable (journal : Journal i events w) : Reliable i events w where
  lawful := journal.lawful
  returnedOnce := returned_once journal.lawful
  visitedOnce := decided_nodup journal.lawful
  inOrder sound inv found working s state := by
    have member := List.mem_of_getElem? found
    refine ⟨journal.charted.distinct s (List.mem_map.mpr ⟨inv, member, state⟩), ?_⟩
    exact (journal.told sound inv found).inOrder journal.charted member working state
  last sound inv found phase := by
    have course := journal.told sound inv found
    refine ⟨course.ready phase, ?_⟩
    intro atEnd s state b member old
    exact course.exhausted phase atEnd state member old
  expired expiredSlot w' stepped sound := by
    obtain ⟨before, effect⟩ := step_effect stepped
    obtain ⟨inv, found, _⟩ := step_slotThrows stepped sound
    exact (journal.told before inv found).disconnects found stepped sound

theorem Guarding.caller_step (guarding : w.Guarding) (own : a.caller = some i)
    (stepped : w.step a = some w') : w'.fault = none := by
  obtain ⟨sound, effect⟩ := step_effect stepped
  cases raised : w'.fault with
  | none => rfl
  | some f =>
      have cause := guarding.isolated.counted.cause sound effect raised
      rcases guarding.cause_origin cause with rfl | ⟨j, rfl, rfl⟩ | ⟨t, rfl⟩ <;> cases own

/-- The call iterator, whatever the combiner, the slots and the other clients do; no
step of the combiner or of a slot goes wrong unless a combiner has been set meanwhile. -/
theorem call_iterator_runs {combiner : σ.Combiner}
    {defaultCompare groupCompare : σ.Group → σ.Group → Bool} {owners : ObjectId → Nat}
    {actions : List (Action σ)}
    (ran : Runs.run World.step (World.construct combiner defaultCompare groupCompare owners)
      actions = some w) (i : InvocationId) :
    Reliable i (Runs.outputs World.step (iteratorEvents i)
        (World.construct combiner defaultCompare groupCompare owners) actions) w ∧
      (Runs.Guarded World.step CombinerSetAlone
        (World.construct combiner defaultCompare groupCompare owners) actions →
          ∀ (a : Action σ) w', a.caller = some i → w.step a = some w' → w'.fault = none) := by
  refine ⟨(journal_run ran).reliable, ?_⟩
  intro alone a w' own stepped
  have keeps : ∀ (s : World σ) action next, s.Guarding → CombinerSetAlone s action →
      s.step action = some next → next.Guarding :=
    fun s action next guarding alone stepped => guarding.step alone stepped
  have guarding := Runs.run_invariant keeps
    (construct_guarding combiner defaultCompare groupCompare owners) alone ran
  exact guarding.caller_step own stepped

end World

/-- The first slot throws, is called again and returns, its result is read a second
time; the second slot throws `expired_slot`. -/
def catchAndRetry : List (Action natSignal) :=
  [connectBack 10, .section, connectBack 11, .section, .section, .invoke, .section, .section,
    .lockNext 0, .section, .dereference 0, .slotThrows 0 false, .dereference 0, .slotReturns 0 5,
    .dereference 0, .increment 0, .lockNext 0, .section, .dereference 0, .slotThrows 0 true,
    .increment 0, .reachEnd 0]

theorem catchAndRetry_reliable :
    ∃ w : World natSignal, Runs.run World.step natStart catchAndRetry = some w ∧
      w.fault = none ∧
      ((w.bodies 0).connected, (w.bodies 1).connected) = (true, false) ∧
      World.Reliable 0
        (Runs.outputs World.step (World.iteratorEvents 0) natStart catchAndRetry) w ∧
      ∀ (a : Action natSignal) w', a.caller = some 0 → w.step a = some w' → w'.fault = none := by
  have ends : (Runs.run World.step natStart catchAndRetry).map
      (fun w => (w.fault, (w.bodies 0).connected, (w.bodies 1).connected)) =
        some (none, true, false) := by decide +kernel
  obtain ⟨w, ran, facts⟩ := Option.map_eq_some_iff.mp ends
  obtain ⟨reliable, sound⟩ := World.call_iterator_runs ran 0
  refine ⟨w, ran, congrArg Prod.fst facts, congrArg Prod.snd facts, reliable, ?_⟩
  apply sound
  apply World.CombinerSetAlone.of_forall
  simp [catchAndRetry, connectBack]

end Signals2
