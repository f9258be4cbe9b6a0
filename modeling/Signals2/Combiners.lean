/-
The combiners that the library provides, `optional_last_value` and `last_value`, each
driving the call iterator of one invocation while everybody else goes on as they like.
What a combiner comes to is a fold of how the calls of the slots ended.
-/

import Signals2.CallIterator

namespace Signals2

open LinkedLists

variable {σ : SignalTemplate} {Result Answer : Type}

/-! ### The combiners -/

/-- How a combiner is left. -/
inductive Exit (Answer : Type) where
  | returns (answer : Answer)
  | noSlotsError
  | slotException
deriving DecidableEq, Repr

/-- The points of `operator()` at which it uses its iterators, with the optional value. -/
inductive ProgramPoint (Result Answer : Type) where
  | entry
  | test (value : Option Result)
  | dereference (value : Option Result)
  | increment (value : Option Result)
  | leave (exit : Exit Answer)
deriving DecidableEq, Repr

/-- The two combiners have the same loop; they differ before it and after it. -/
structure CombinerCode (Result Answer : Type) where
  start : ProgramPoint Result Answer
  answer : Option Result → Exit Answer

def optionalLastValue (Result : Type) : CombinerCode Result (Option Result) where
  start := .test none
  answer value := .returns value

def lastValue (Result : Type) : CombinerCode Result Result where
  start := .entry
  answer value :=
    match value with
    | some result => .returns result
    | none => .noSlotsError

/-- The iterator either has the result cached or calls the slot for it. -/
def ProgramPoint.attempt (inv : Invocation σ) (value : Option σ.Result) :
    ProgramPoint σ.Result Answer :=
  match inv.result with
  | some result => .increment (some result)
  | none => .dereference value

/-- The actions that the combiner and the slot have still to take at the present slot. -/
def ProgramPoint.ahead : ProgramPoint Result Answer → Nat
  | .dereference _ => 2
  | .increment _ => 1
  | _ => 0

/-- Where the code is after an action of its own, or of the slot that it has called;
`none` where it would not take the action. -/
def CombinerCode.follow (code : CombinerCode σ.Result Answer) (inv : Invocation σ) :
    ProgramPoint σ.Result Answer → Action σ → Option (ProgramPoint σ.Result Answer)
  | .entry, .dereference _ => some (.attempt inv none)
  -- `first == last`
  | .entry, .finish _ => if inv.iter.node = none then some (.leave .noSlotsError) else none
  | .test value, .dereference _ => some (.attempt inv value)
  | .test value, .finish _ =>
      if inv.iter.node = none then some (.leave (code.answer value)) else none
  | .dereference _, .slotReturns _ result => some (.increment (some result))
  -- `expired_slot` is caught, everything else is not
  | .dereference value, .slotThrows _ expiredSlot =>
      some (if expiredSlot then .increment value else .leave .slotException)
  | .increment value, .increment _ => some (.test value)
  | .leave exit, .finish _ => some (.leave exit)
  | _, _ => none

/-- The invocation whose combiner, or whose slot, an action comes from; its end included. -/
def Action.combining : Action σ → Option InvocationId
  | .finish i => some i
  | a => a.caller

/-- A world in which one invocation runs a provided combiner. -/
structure Driven (σ : SignalTemplate) (Answer : Type) where
  world : World σ
  point : ProgramPoint σ.Result Answer

def Driven.step (code : CombinerCode σ.Result Answer) (i : InvocationId) (d : Driven σ Answer)
    (a : Action σ) : Option (Driven σ Answer) :=
  match d.world.step a with
  | none => none
  | some w' =>
      if a.combining = some i then
        match d.world.invocations[i]? with
        | none => none
        | some inv => (code.follow inv d.point a).map fun point => { world := w', point := point }
      else some { d with world := w' }

/-- The loop begins at once, or after a test that fails as the loop would with no value. -/
def CombinerCode.Proper (code : CombinerCode Result Answer) : Prop :=
  code.start = .test none ∨ code.start = .entry ∧ code.answer none = .noSlotsError

theorem optionalLastValue_proper : (optionalLastValue Result).Proper := .inl rfl

theorem lastValue_proper : (lastValue Result).Proper := .inr ⟨rfl, rfl⟩

theorem CombinerCode.Proper.coherent {code : CombinerCode Result Answer} (proper : code.Proper)
    (start : code.start = .entry) : code.answer none = .noSlotsError := by
  rcases proper with other | ⟨_, answer⟩
  · rw [start] at other
    cases other
  · exact answer

theorem CombinerCode.Proper.not_left {code : CombinerCode Result Answer} (proper : code.Proper)
    (exit : Exit Answer) : code.start ≠ .leave exit := by
  intro left
  rcases proper with start | ⟨start, _⟩ <;>
    · rw [start] at left
      cases left

theorem CombinerCode.Proper.ahead {code : CombinerCode Result Answer} (proper : code.Proper) :
    code.start.ahead = 0 := by
  rcases proper with start | ⟨start, _⟩ <;>
    · rw [start]
      rfl

/-- The code takes part in a step exactly if the step is its own. -/
theorem Driven.step_some {code : CombinerCode σ.Result Answer} {i : InvocationId}
    {d d' : Driven σ Answer} {a : Action σ} (stepped : d.step code i a = some d') :
    d.world.step a = some d'.world ∧
      (a.combining = some i ∧ (∃ inv, d.world.invocations[i]? = some inv ∧
          code.follow inv d.point a = some d'.point) ∨
        a.combining ≠ some i ∧ d'.point = d.point) := by
  unfold Driven.step at stepped
  split at stepped
  · cases stepped
  · rename_i w' moved
    split at stepped
    · rename_i mine
      split at stepped
      · cases stepped
      · rename_i inv found
        obtain ⟨point, followed, rfl⟩ := Option.map_eq_some_iff.mp stepped
        exact ⟨moved, .inl ⟨mine, inv, found, followed⟩⟩
    · rename_i other
      cases stepped
      exact ⟨moved, .inr ⟨other, rfl⟩⟩

/-! ### How the calls end -/

inductive SlotOutcome (Result : Type) where
  | value (result : Result)
  | expiredSlot
  | exception
deriving DecidableEq, Repr

/-- The value of the last slot that returned normally. -/
def lastReturned (outcomes : List (SlotOutcome Result)) : Option Result :=
  outcomes.foldl (fun value outcome =>
    match outcome with
    | .value result => some result
    | _ => value) none

namespace IteratorEvent

/-- The callable slots, in the order in which the iterator has come to them. -/
def callables (events : List (IteratorEvent Result)) : List BodyId :=
  events.filterMap fun event =>
    match event with
    | .decide b true => some b
    | _ => none

def called (events : List (IteratorEvent Result)) : List BodyId :=
  events.filterMap fun event =>
    match event with
    | .call b => some b
    | _ => none

def attempts (events : List (IteratorEvent Result)) : List (BodyId × SlotOutcome Result) :=
  events.filterMap fun event =>
    match event with
    | .returns b result => some (b, .value result)
    | .throws b expiredSlot => some (b, if expiredSlot then .expiredSlot else .exception)
    | _ => none

def attempted (events : List (IteratorEvent Result)) : List BodyId :=
  (attempts events).map Prod.fst

def outcomes (events : List (IteratorEvent Result)) : List (SlotOutcome Result) :=
  (attempts events).map Prod.snd

variable {events : List (IteratorEvent Result)} {b : BodyId}

@[simp] theorem attempts_append (first second : List (IteratorEvent Result)) :
    attempts (first ++ second) = attempts first ++ attempts second := List.filterMap_append

theorem throws_mem (thrown : (b, .expiredSlot) ∈ attempts events) : .throws b true ∈ events := by
  obtain ⟨event, member, same⟩ := List.mem_filterMap.mp thrown
  cases event with
  | returns c result => simp at same
  | throws c expiredSlot =>
      cases expiredSlot with
      | true =>
          have equal : c = b := by simpa using same
          exact equal ▸ member
      | false => simp at same
  | _ => cases same

theorem attempts_mem (thrown : .throws b true ∈ events) : (b, .expiredSlot) ∈ attempts events :=
  List.mem_filterMap.mpr ⟨_, thrown, rfl⟩

theorem callables_mem (callable : b ∈ callables events) : .decide b true ∈ events := by
  obtain ⟨event, member, same⟩ := List.mem_filterMap.mp callable
  cases event with
  | decide c callable =>
      cases callable with
      | true =>
          have equal : c = b := by simpa using same
          exact equal ▸ member
      | false => cases same
  | _ => cases same

/-- The iterator decides once about a position. -/
theorem decide_unique (along : Runs.Along Lawful events) (callable : .decide b true ∈ events) :
    .decide b false ∉ events := by
  have distinct := decided_nodup along
  intro other
  obtain ⟨before, after, rfl⟩ := List.append_of_mem callable
  have once : ∀ rest : List (IteratorEvent Result), .decide b false ∈ rest → b ∈ decided rest :=
    fun rest member => List.mem_filterMap.mpr ⟨_, member, rfl⟩
  have split : decided (before ++ .decide b true :: after) =
      decided before ++ b :: decided after := by
    simp [decided]
  rw [split] at distinct
  obtain ⟨_, tail, apart⟩ := List.nodup_append.mp distinct
  rcases List.mem_append.mp other with early | late
  · exact apart b (once before early) b List.mem_cons_self rfl
  · rcases List.mem_cons.mp late with same | later
    · simp at same
    · exact (List.nodup_cons.mp tail).1 (once after later)

theorem callables_sublist : (callables events).Sublist (decided events) := by
  induction events with
  | nil => exact .refl _
  | cons event rest ih =>
      cases event with
      | decide b callable =>
          cases callable with
          | true => exact ih.cons_cons b
          | false => exact ih.cons b
      | _ => exact ih

end IteratorEvent

namespace World

open IteratorEvent

variable {w w' : World σ} {a : Action σ} {i : InvocationId} {inv inv' : Invocation σ}
  {events : List (IteratorEvent σ.Result)} {code : CombinerCode σ.Result Answer}
  {point : ProgramPoint σ.Result Answer}

/-! ### The combiner and its history -/

/-- All calls have ended so far, and the combiner has caught what they threw; `found` is
the callable slot that it has not tried yet. -/
structure Sofar (events : List (IteratorEvent σ.Result)) (value : Option σ.Result)
    (found : List BodyId) : Prop where
  value_eq : value = lastReturned (outcomes events)
  caught : .exception ∉ outcomes events
  callables_eq : callables events = attempted events ++ found

inductive Left (code : CombinerCode σ.Result Answer) (events : List (IteratorEvent σ.Result)) :
    Exit Answer → Prop
  | last (value : Option σ.Result) (sofar : Sofar events value []) :
      Left code events (code.answer value)
  | exception (b : BodyId) (earlier : List (BodyId × SlotOutcome σ.Result))
      (attempts_eq : attempts events = earlier ++ [(b, .exception)])
      (caught : .exception ∉ earlier.map Prod.snd)
      (callables_eq : callables events = attempted events) : Left code events .slotException

/-- The invocation and its history fit the point at which the combiner is. -/
inductive Fits (code : CombinerCode σ.Result Answer) (events : List (IteratorEvent σ.Result))
    (inv : Invocation σ) : ProgramPoint σ.Result Answer → Prop
  | entry (start : code.start = .entry) (sofar : Sofar events none (standing events).toList)
      (calls : called events = attempted events)
      (phase : inv.phase = .searching ∨ inv.phase = .ready) (fresh : inv.result = none) :
      Fits code events inv .entry
  | test (value : Option σ.Result) (sofar : Sofar events value (standing events).toList)
      (calls : called events = attempted events)
      (phase : inv.phase = .searching ∨ inv.phase = .ready) (fresh : inv.result = none) :
      Fits code events inv (.test value)
  | dereference (value : Option σ.Result) (b : BodyId) (stood : standing events = some b)
      (sofar : Sofar events value [b]) (calls : called events = attempted events ++ [b])
      (phase : inv.phase = .running) : Fits code events inv (.dereference value)
  | increment (value : Option σ.Result) (sofar : Sofar events value [])
      (calls : called events = attempted events) (phase : inv.phase = .ready)
      (stood : standing events ≠ none) : Fits code events inv (.increment value)
  | leave (exit : Exit Answer) (left : Left code events exit)
      (calls : called events = attempted events)
      (phase : inv.phase = .ready ∧ exit = .slotException ∨ ¬ Working inv)
      (quit : inv.phase = .releasing ∨ inv.phase = .done → inv.activeSlot = none) :
      Fits code events inv (.leave exit)

/-- The search goes on, or has come to a callable slot. -/
theorem Sofar.decide {value : Option σ.Result} (sofar : Sofar events value []) (b : BodyId)
    (callable : Bool) :
    Sofar (events ++ [.decide b callable]) value
      (standing (events ++ [.decide b callable])).toList where
  value_eq := by simpa [outcomes, attempts] using sofar.value_eq
  caught := by simpa [outcomes, attempts] using sofar.caught
  callables_eq := by
    have before := sofar.callables_eq
    cases callable with
    | false => simpa [callables, attempted, attempts] using before
    | true => simpa [callables, attempted, attempts] using before

theorem called_decide (calls : called events = attempted events) (b : BodyId) (callable : Bool) :
    called (events ++ [.decide b callable]) = attempted (events ++ [.decide b callable]) := by
  simpa [called, attempted, attempts] using calls

/-- A combiner does not search while it tries a slot, nor after its end. -/
theorem Fits.searching (fits : Fits code events inv point) (phase : inv.phase = .searching)
    (idle : standing events = none) :
    (point = .entry ∧ code.start = .entry ∧ Sofar events none [] ∨
      ∃ value, point = .test value ∧ Sofar events value []) ∧
      called events = attempted events ∧ inv.result = none := by
  cases fits with
  | entry start sofar calls ready fresh =>
      rw [idle] at sofar
      exact ⟨.inl ⟨rfl, start, sofar⟩, calls, fresh⟩
  | test value sofar calls ready fresh =>
      rw [idle] at sofar
      exact ⟨.inr ⟨value, rfl, sofar⟩, calls, fresh⟩
  | dereference value b stood sofar calls running =>
      rw [phase] at running
      cases running
  | increment value sofar calls ready =>
      rw [phase] at ready
      cases ready
  | leave exit left calls ended quit =>
      rcases ended with ⟨ready, _⟩ | stopped
      · rw [phase] at ready
        cases ready
      · exact absurd (.inl phase) stopped

theorem Fits.decide (fits : Fits code events inv point) (phase : inv.phase = .searching)
    (idle : standing events = none) (b : BodyId) (callable : Bool)
    (phase' : inv'.phase = .searching ∨ inv'.phase = .ready) (result : inv'.result = inv.result) :
    Fits code (events ++ [.decide b callable]) inv' point := by
  obtain ⟨where_, calls, fresh⟩ := fits.searching phase idle
  have calls' := called_decide calls b callable
  rcases where_ with ⟨rfl, start, sofar⟩ | ⟨value, rfl, sofar⟩
  · exact .entry start (sofar.decide b callable) calls' phase' (result.trans fresh)
  · exact .test value (sofar.decide b callable) calls' phase' (result.trans fresh)

/-- What the combiner does not see may change while it is at a point. -/
theorem Fits.congr (fits : Fits code events inv point) (phase : inv'.phase = inv.phase)
    (result : inv'.result = inv.result) (active : inv'.activeSlot = inv.activeSlot) :
    Fits code events inv' point := by
  cases fits with
  | entry start sofar calls ready fresh =>
      exact .entry start sofar calls (by rw [phase]; exact ready) (result.trans fresh)
  | test value sofar calls ready fresh =>
      exact .test value sofar calls (by rw [phase]; exact ready) (result.trans fresh)
  | dereference value b stood sofar calls running =>
      exact .dereference value b stood sofar calls (phase.trans running)
  | increment value sofar calls ready stood =>
      exact .increment value sofar calls (phase.trans ready) stood
  | leave exit left calls ended quit =>
      refine .leave exit left calls ?_ ?_
      · unfold Working at ended ⊢
        rw [phase]
        exact ended
      · rw [phase, active]
        exact quit

theorem Fits.reachEnd (fits : Fits code events inv point) (phase : inv.phase = .searching)
    (phase' : inv'.phase = .ready) (result : inv'.result = inv.result) :
    Fits code events inv' point := by
  cases fits with
  | entry start sofar calls ready fresh =>
      exact .entry start sofar calls (.inr phase') (result.trans fresh)
  | test value sofar calls ready fresh =>
      exact .test value sofar calls (.inr phase') (result.trans fresh)
  | dereference value b stood sofar calls running =>
      rw [phase] at running
      cases running
  | increment value sofar calls ready =>
      rw [phase] at ready
      cases ready
  | leave exit left calls ended quit =>
      rcases ended with ⟨ready, _⟩ | stopped
      · rw [phase] at ready
        cases ready
      · exact absurd (.inl phase) stopped

/-- The cache of an invocation that has ended holds no slot any more. -/
theorem Effect.quit (effect : Effect w a w') (found : w.invocations[i]? = some inv)
    (found' : w'.invocations[i]? = some inv') (stopped : ¬ Working inv)
    (quit : inv.phase = .releasing ∨ inv.phase = .done → inv.activeSlot = none) :
    inv'.phase = .releasing ∨ inv'.phase = .done → inv'.activeSlot = none := by
  intro over'
  rcases effect.progress found found' with rfl | how
  · exact quit over'
  · cases how with
    | insert => exact quit over'
    | commit => rcases over' with is | is <;> cases is
    | skip b todo locked u critical ended blocked =>
        have phase : (counted inv (u.bodies b).connected).phase = inv.phase := counted_phase inv _
        have active : (counted inv (u.bodies b).connected).activeSlot = inv.activeSlot := by
          unfold counted
          split <;> rfl
        dsimp only at over' ⊢
        rw [phase] at over'
        rw [active]
        exact quit over'
    | reachEnd => rfl
    | destroyCache => rfl
    | forced => rcases over' with is | is <;> cases is
    | throwExpired => rcases over' with is | is <;> cases is
    | move move =>
        cases move with
        | clear => exact quit over'
        | skipCache phase idle => exact idle
        | releaseState phase cleared => exact quit (.inl phase)
        | increment ready inside here => exact absurd (.inr (.inl ready)) stopped
        | _ => rcases over' with is | is <;> cases is

/-- What the library, and other clients, do to the invocation. -/
theorem Fits.others (fits : Fits code events inv point) (course : Course w inv events)
    {shown : List CallEvent} (observed : Observed i w a w' shown) (effect : Effect w a w')
    (other : a.combining ≠ some i) (found : w.invocations[i]? = some inv)
    (found' : w'.invocations[i]? = some inv') :
    Fits code (events ++ shown.map .ofCallEvent) inv' point := by
  have notCaller : a.caller ≠ some i := by
    intro caller
    cases a with
    | finish j => cases caller
    | _ => exact other caller
  cases observed with
  | same kept =>
      cases found.symm.trans (kept.symm.trans found')
      simpa using fits
  | start impl present absent => cases absent.symm.trans found
  | commit old new b here here' phase at_ phase' state iter result =>
      cases found.symm.trans here
      cases found'.symm.trans here'
      obtain ⟨_, _, idle, _⟩ := course.searched phase
      exact fits.decide phase idle b true (.inr phase') result
  | skip old new b here here' phase at_ phase' state iter result =>
      cases found.symm.trans here
      cases found'.symm.trans here'
      obtain ⟨_, _, idle, _⟩ := course.searched phase
      exact fits.decide phase idle b false (.inl phase') result
  | call old b here here' phase inside first at_ =>
      exact absurd (effect.caller_of_call here here' (by simp [phase]) rfl) notCaller
  | aside old new here here' how =>
      cases found.symm.trans here
      cases found'.symm.trans here'
      rw [List.map_nil, List.append_nil]
      cases how with
      | stay trackedPtrs => exact fits.congr rfl rfl rfl
      | reachEnd callableIter activeSlot phase atEnd => exact fits.reachEnd phase rfl rfl
      | returns result phase => exact absurd rfl notCaller
      | throws expiredSlot phase => exact absurd rfl notCaller
      | increment phase inside => exact absurd rfl notCaller
      | finish phase => exact absurd rfl other
      | leave _ before after =>
          cases fits with
          | entry start sofar calls phase fresh => exact absurd (phase.imp id .inl) before
          | test value sofar calls phase fresh => exact absurd (phase.imp id .inl) before
          | dereference value b stood sofar calls phase => exact absurd (.inr (.inr phase)) before
          | increment value sofar calls phase => exact absurd (.inr (.inl phase)) before
          | leave exit left calls ended quit =>
              exact .leave exit left calls (.inr after) (effect.quit found found' before quit)

/-! ### The combiner's own steps -/

theorem Fits.call (fits : Fits code events inv point) {next : ProgramPoint σ.Result Answer}
    (followed : code.follow inv point (.dereference i) = some next) {b : BodyId}
    (stood : standing events = some b) :
    inv.result = none ∧
      Fits code (events ++ [.call b]) { inv with phase := .running } next := by
  have whole : ∀ value, Sofar events value (standing events).toList →
      called events = attempted events → Fits code (events ++ [.call b])
        { inv with phase := .running } (.dereference value) := by
    intro value sofar calls
    rw [stood] at sofar
    refine .dereference value b ?_ ?_ ?_ rfl
    · rw [standing_append, stood]
      rfl
    · constructor
      · simpa [outcomes, attempts] using sofar.value_eq
      · simpa [outcomes, attempts] using sofar.caught
      · simpa [callables, attempted, attempts] using sofar.callables_eq
    · simpa [called, attempted, attempts] using calls
  cases fits with
  | entry start sofar calls phase fresh =>
      have at_ : next = .dereference none := by
        simpa [CombinerCode.follow, ProgramPoint.attempt, fresh] using followed.symm
      subst at_
      exact ⟨fresh, whole none sofar calls⟩
  | test value sofar calls phase fresh =>
      have at_ : next = .dereference value := by
        simpa [CombinerCode.follow, ProgramPoint.attempt, fresh] using followed.symm
      subst at_
      exact ⟨fresh, whole value sofar calls⟩
  | dereference value b stood sofar calls phase => cases followed
  | increment value sofar calls phase => cases followed
  | leave exit left calls phase quit => cases followed

theorem Fits.returns (fits : Fits code events inv point) {next : ProgramPoint σ.Result Answer}
    {result : σ.Result} (followed : code.follow inv point (.slotReturns i result) = some next)
    {b : BodyId} (stood : standing events = some b) :
    Fits code (events ++ [.returns b result])
      { inv with phase := .ready, result := some result } next := by
  cases fits with
  | dereference value c stood' sofar calls phase =>
      cases stood.symm.trans stood'
      cases followed
      refine .increment (some result) ?_ ?_ rfl ?_
      · constructor
        · simp [outcomes, attempts, lastReturned]
        · simpa [outcomes, attempts] using sofar.caught
        · simpa [callables, attempted, attempts] using sofar.callables_eq
      · simpa [called, attempted, attempts] using calls
      · simp [standing_append, stood]
  | _ => cases followed

theorem Fits.throws (fits : Fits code events inv point) {next : ProgramPoint σ.Result Answer}
    {expiredSlot : Bool}
    (followed : code.follow inv point (.slotThrows i expiredSlot) = some next)
    {b : BodyId} (stood : standing events = some b) :
    Fits code (events ++ [.throws b expiredSlot]) { inv with phase := .ready } next := by
  cases fits with
  | dereference value c stood' sofar calls phase =>
      cases stood.symm.trans stood'
      cases followed
      have calls' : called (events ++ [.throws b expiredSlot]) =
          attempted (events ++ [.throws b expiredSlot]) := by
        simpa [called, attempted, attempts] using calls
      have found' : callables (events ++ [.throws b expiredSlot]) =
          attempted (events ++ [.throws b expiredSlot]) := by
        simpa [callables, attempted, attempts] using sofar.callables_eq
      cases expiredSlot with
      | true =>
          refine .increment value ?_ calls' rfl ?_
          · constructor
            · rw [sofar.value_eq]
              simp [outcomes, attempts, lastReturned]
            · simpa [outcomes, attempts] using sofar.caught
            · rw [found', List.append_nil]
          · simp [standing_append, stood]
      | false =>
          refine .leave .slotException ?_ calls' (.inl ⟨rfl, rfl⟩) ?_
          · exact .exception b (attempts events) (by simp [attempts]) sofar.caught found'
          · intro ended
            rcases ended with is | is <;> cases is
  | _ => cases followed

theorem Fits.advance (fits : Fits code events inv point)
    {next : ProgramPoint σ.Result Answer}
    (followed : code.follow inv point (.increment i) = some next) (b : BodyId)
    (phase' : inv'.phase = .searching ∨ inv'.phase = .ready) (fresh : inv'.result = none) :
    Fits code (events ++ [.increment b]) inv' next := by
  cases fits with
  | increment value sofar calls phase =>
      cases followed
      refine .test value ?_ ?_ phase' fresh
      · constructor
        · simpa [outcomes, attempts] using sofar.value_eq
        · simpa [outcomes, attempts] using sofar.caught
        · simpa [callables, attempted, attempts, standing] using sofar.callables_eq
      · simpa [called, attempted, attempts] using calls
  | _ => cases followed

/-- The combiner is left at the end of its loop, or by the exception of a slot. -/
theorem Fits.finish (fits : Fits code events inv point)
    (coherent : code.start = .entry → code.answer none = .noSlotsError)
    {next : ProgramPoint σ.Result Answer}
    (followed : code.follow inv point (.finish i) = some next) (ready : inv.phase = .ready)
    (atEnd : inv.iter.node = none → standing events = none) :
    Fits code events { inv with phase := .janitor } next ∧
      ∀ exit, next = .leave exit → exit ≠ .slotException → inv.iter.node = none := by
  have stopped : ¬ Working { inv with phase := .janitor } := by simp [Working]
  have quit : ({ inv with phase := .janitor } : Invocation σ).phase = .releasing ∨
      ({ inv with phase := .janitor } : Invocation σ).phase = .done → inv.activeSlot = none := by
    intro ended
    rcases ended with is | is <;> cases is
  cases fits with
  | entry start sofar calls phase fresh =>
      simp only [CombinerCode.follow] at followed
      split at followed
      · rename_i here
        cases followed
        rw [atEnd here] at sofar
        have left : Left code events (code.answer none) := .last none sofar
        rw [coherent start] at left
        exact ⟨.leave _ left calls (.inr stopped) quit, fun _ _ _ => here⟩
      · cases followed
  | test value sofar calls phase fresh =>
      simp only [CombinerCode.follow] at followed
      split at followed
      · rename_i here
        cases followed
        rw [atEnd here] at sofar
        exact ⟨.leave _ (.last value sofar) calls (.inr stopped) quit, fun _ _ _ => here⟩
      · cases followed
  | dereference value b stood sofar calls phase => cases followed
  | increment value sofar calls phase => cases followed
  | leave exit left calls phase held =>
      cases followed
      rcases phase with ⟨_, thrown⟩ | ended
      · refine ⟨.leave exit left calls (.inr stopped) quit, ?_⟩
        intro other same foreign
        cases same
        exact absurd thrown foreign
      · exact absurd (.inr (.inl ready)) ended

theorem step_finish (stepped : w.step (.finish i) = some w') :
    ∃ inv, w.invocations[i]? = some inv ∧ inv.phase = .ready ∧
      w' = w.setInvocation i { inv with phase := .janitor } := by
  unfold step at stepped
  split at stepped
  · cases stepped
  · simp only [World.finish] at stepped
    split at stepped
    · cases stepped
    · rename_i inv found
      split at stepped
      · rename_i ready
        cases stepped
        exact ⟨inv, found, ready, rfl⟩
      · cases stepped

theorem iteratorEvents_finish (stepped : w.step (.finish i) = some w') :
    iteratorEvents i w (.finish i) = [] := by
  obtain ⟨inv, found, ready, rfl⟩ := step_finish stepped
  have quiet : seen i w (w.setInvocation i { inv with phase := .janitor }) = [] := by
    rw [seen_setInvocation found]
    exact startedCalls_idle found (setInvocation_here found _) (.inr (by simp))
  have outcome : outcomeEvents i w (.finish i) = [] := outcomeEvents_other (by simp [Action.caller])
  simp [iteratorEvents, stepped, quiet, outcome]

end World

end Signals2
