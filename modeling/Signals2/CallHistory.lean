/-
What an observer of one invocation sees: the snapshot it starts with, what each
search for the next callable slot decides about the connection it stands on, and
the calls.  Whatever else goes on, the history of an invocation is one visit
after the other, in the order of its snapshot.
-/

import Signals2.CurrentList
import Signals2.SnapshotIsolation

namespace Signals2

open LinkedLists

variable {σ : SignalTemplate}

inductive CallEvent where
  | start (snapshot : List BodyId)
  | decide (b : BodyId) (callable : Bool)
  | call (b : BodyId)
deriving DecidableEq, Repr

namespace World

variable {w w' : World σ} {a : Action σ} {i : InvocationId}

/-! ### Events -/

def startEvents (i : InvocationId) (w w' : World σ) : List CallEvent :=
  match w.invocations[i]?, w'.invocations[i]? with
  | none, some inv =>
      (inv.localState.map fun s => CallEvent.start (w'.listOf s).list.values).toList
  | _, _ => []

/-- A search ends its critical section with every tracked object promoted, or with
one that has expired. -/
def decideEvents (i : InvocationId) (w w' : World σ) : List CallEvent :=
  match w.critical, w'.critical with
  | some (.grabTrackedObjects (.iterator j) b todo _), none =>
      if j = i then [.decide b (todo.isEmpty && !w.nolockNograbBlocked b)] else []
  | _, _ => []

/-- A call of the slot function starts. -/
def startedCalls (i : InvocationId) (w w' : World σ) : List CallEvent :=
  match w.invocations[i]?, w'.invocations[i]? with
  | some inv, some inv' =>
      if inv.phase ≠ .running ∧ inv'.phase = .running then
        (w.bodyAt inv.localState inv.iter).toList.map .call
      else []
  | _, _ => []

def seen (i : InvocationId) (w w' : World σ) : List CallEvent :=
  startEvents i w w' ++ decideEvents i w w' ++ startedCalls i w w'

def callEvents (i : InvocationId) (w : World σ) (a : Action σ) : List CallEvent :=
  match w.step a with
  | none => []
  | some w' => seen i w w'

/-! ### Steps as the observer sees them -/

/-- A step of the invocation that shows nothing. -/
inductive Aside (w : World σ) (i : InvocationId) (inv : Invocation σ) :
    Action σ → Invocation σ → Prop
  | stay {a : Action σ} (trackedPtrs : List (Option ObjectId)) :
      Aside w i inv a { inv with trackedPtrs := trackedPtrs }
  | reachEnd {a : Action σ} (callableIter : Iterator) (activeSlot : Option BodyId)
      (phase : inv.phase = .searching) (atEnd : inv.iter.node = none) :
      Aside w i inv a
        { inv with phase := .ready, callableIter := callableIter, activeSlot := activeSlot }
  | returns (result : σ.Result) (phase : inv.phase = .running) :
      Aside w i inv (.slotReturns i result) { inv with phase := .ready, result := some result }
  | throws (expiredSlot : Bool) (phase : inv.phase = .running) :
      Aside w i inv (.slotThrows i expiredSlot) { inv with phase := .ready }
  | increment (phase : inv.phase = .ready) (inside : inv.iter.node ≠ none) :
      Aside w i inv (.increment i)
        { inv with
          iter := w.iteratorAfter inv.localState inv.iter
          result := none
          phase :=
            if w.iteratorAfter inv.localState inv.iter = inv.callableIter then .ready
            else .searching }
  | finish (phase : inv.phase = .ready) :
      Aside w i inv (.finish i) { inv with phase := .janitor }
  | leave {a : Action σ} (inv' : Invocation σ) (before : ¬ Working inv) (after : ¬ Working inv') :
      Aside w i inv a inv'

inductive Observed (i : InvocationId) (w : World σ) (a : Action σ) (w' : World σ) :
    List CallEvent → Prop
  | same (kept : w'.invocations[i]? = w.invocations[i]?) : Observed i w a w' []
  | start (impl : SignalImpl) (present : w.heap.impl = some impl)
      (absent : w.invocations[i]? = none)
      (found' : w'.invocations[i]? = some (w.newInvocation impl))
      (lists : ∀ s, w'.listOf s = w.listOf s) :
      Observed i w a w' [.start (w.heap.connectionBodies impl).list.values]
  | commit (inv inv' : Invocation σ) (b : BodyId) (found : w.invocations[i]? = some inv)
      (found' : w'.invocations[i]? = some inv') (phase : inv.phase = .searching)
      (here : w.bodyAt inv.localState inv.iter = some b) (phase' : inv'.phase = .ready)
      (state : inv'.localState = inv.localState) (iter : inv'.iter = inv.iter)
      (result : inv'.result = inv.result) : Observed i w a w' [.decide b true]
  | skip (inv inv' : Invocation σ) (b : BodyId) (found : w.invocations[i]? = some inv)
      (found' : w'.invocations[i]? = some inv') (phase : inv.phase = .searching)
      (here : w.bodyAt inv.localState inv.iter = some b) (phase' : inv'.phase = .searching)
      (state : inv'.localState = inv.localState)
      (iter : inv'.iter = w.iteratorAfter inv.localState inv.iter)
      (result : inv'.result = inv.result) : Observed i w a w' [.decide b false]
  | call (inv : Invocation σ) (b : BodyId) (found : w.invocations[i]? = some inv)
      (found' : w'.invocations[i]? = some { inv with phase := .running })
      (phase : inv.phase = .ready) (inside : inv.iter.node ≠ none) (first : inv.result = none)
      (here : w.bodyAt inv.localState inv.iter = some b) : Observed i w a w' [.call b]
  | aside (inv inv' : Invocation σ) (found : w.invocations[i]? = some inv)
      (found' : w'.invocations[i]? = some inv') (how : Aside w i inv a inv') :
      Observed i w a w' []

theorem startEvents_old {inv : Invocation σ} (found : w.invocations[i]? = some inv) :
    startEvents i w w' = [] := by
  simp only [startEvents, found]

theorem decideEvents_nil (undecided : ∀ b todo locked,
    w.critical = some (.grabTrackedObjects (.iterator i) b todo locked) → w'.critical ≠ none) :
    decideEvents i w w' = [] := by
  unfold decideEvents
  split
  · rename_i j b todo locked critical ended
    split
    · rename_i same
      subst same
      exact absurd ended (undecided b todo locked critical)
    · rfl
  · rfl

theorem startedCalls_idle {inv inv' : Invocation σ} (found : w.invocations[i]? = some inv)
    (found' : w'.invocations[i]? = some inv')
    (idle : inv.phase = .running ∨ inv'.phase ≠ .running) : startedCalls i w w' = [] := by
  have quiet : ¬ (inv.phase ≠ .running ∧ inv'.phase = .running) :=
    fun starts => idle.elim starts.1 fun other => other starts.2
  simp only [startedCalls, found, found', if_neg quiet]

private theorem seen_same (kept : w'.invocations[i]? = w.invocations[i]?)
    (undecided : ∀ b todo locked,
      w.critical = some (.grabTrackedObjects (.iterator i) b todo locked) → w'.critical ≠ none) :
    seen i w w' = [] := by
  simp only [seen, decideEvents_nil undecided, List.append_nil]
  cases found : w.invocations[i]? with
  | none => simp only [startEvents, startedCalls, kept, found, List.append_nil]
  | some inv =>
      rw [startEvents_old found, startedCalls_idle found (kept.trans found)]
      · rfl
      · by_cases running : inv.phase = .running
        · exact .inl running
        · exact .inr running

/-- The step changes at most another invocation. -/
private theorem observed_same (kept : w'.invocations[i]? = w.invocations[i]?)
    (undecided : ∀ b todo locked,
      w.critical = some (.grabTrackedObjects (.iterator i) b todo locked) → w'.critical ≠ none) :
    Observed i w a w' (seen i w w') := by
  rw [seen_same kept undecided]
  exact .same kept

private theorem set_other {inv' : Invocation σ} {j : InvocationId} (other : j ≠ i) :
    (w.invocations.set j inv')[i]? = w.invocations[i]? := List.getElem?_set_ne other

private theorem set_here {inv inv' : Invocation σ} (found : w.invocations[i]? = some inv) :
    (w.invocations.set i inv')[i]? = some inv' :=
  List.getElem?_set_self (List.getElem?_eq_some_iff.mp found).1

/-- A step of the invocation itself that neither decides nor calls. -/
private theorem observed_aside {j : InvocationId} {inv inv' : Invocation σ}
    (found : w.invocations[j]? = some inv)
    (invocations : w'.invocations = w.invocations.set j inv')
    (undecided : ∀ b todo locked,
      w.critical = some (.grabTrackedObjects (.iterator i) b todo locked) → w'.critical ≠ none)
    (idle : inv.phase = .running ∨ inv'.phase ≠ .running)
    (how : Aside w j inv a inv') : Observed i w a w' (seen i w w') := by
  by_cases same : j = i
  · subst same
    have found' : w'.invocations[j]? = some inv' := by
      rw [invocations]
      exact set_here found
    rw [seen, startEvents_old found, decideEvents_nil undecided, startedCalls_idle found found' idle]
    exact .aside inv inv' found found' how
  · refine observed_same ?_ undecided
    rw [invocations]
    exact set_other same

private theorem undecided_of_free (free : w.critical = none) : ∀ b todo locked,
    w.critical = some (.grabTrackedObjects (.iterator i) b todo locked) → w'.critical ≠ none := by
  intro b todo locked critical
  rw [free] at critical
  cases critical

private theorem observed_move {j : InvocationId} {inv inv' : Invocation σ}
    (found : w.invocations[j]? = some inv) (move : Move w j inv a inv') :
    Observed i w a (w.setInvocation j inv') (seen i w (w.setInvocation j inv')) := by
  have undecided : ∀ b todo locked,
      w.critical = some (.grabTrackedObjects (.iterator i) b todo locked) →
        (w.setInvocation j inv').critical ≠ none := by
    intro b todo locked critical gone
    have same : w.critical = none := gone
    rw [critical] at same
    cases same
  cases move with
  | clear nonempty outside phase =>
      refine observed_aside found rfl undecided ?_ (.stay _)
      by_cases running : inv.phase = .running
      · exact .inl running
      · exact .inr running
  | reachEnd phase atEnd idle =>
      exact observed_aside found rfl undecided (.inr (by simp))
        (.reachEnd inv.callableIter inv.activeSlot phase atEnd)
  | call b slot phase inside first here held promoted =>
      by_cases same : j = i
      · subst same
        have found' : (w.setInvocation j { inv with phase := .running }).invocations[j]? =
            some { inv with phase := .running } := set_here found
        have called : startedCalls j w (w.setInvocation j { inv with phase := .running }) =
            [.call b] := by
          simp only [startedCalls, found, found', here]
          rw [if_pos]
          · rfl
          · rw [phase]
            exact ⟨(by simp), trivial⟩
        rw [seen, startEvents_old found, decideEvents_nil undecided, called]
        exact .call inv b found found' phase inside first here
      · exact observed_same (set_other same) undecided
  | returns result phase =>
      exact observed_aside found rfl undecided (.inl phase) (.returns result phase)
  | throws phase => exact observed_aside found rfl undecided (.inl phase) (.throws false phase)
  | increment phase inside here =>
      refine observed_aside found rfl undecided (.inr ?_) (.increment phase inside)
      dsimp only
      split <;> simp
  | finish phase => exact observed_aside found rfl undecided (.inr (by simp)) (.finish phase)
  | leave phase few =>
      refine observed_aside found rfl undecided (.inr (by simp)) (.leave _ ?_ ?_)
      · simp [Working, phase]
      · simp [Working]
  | skipCache phase idle =>
      refine observed_aside found rfl undecided (.inr (by simp)) (.leave _ ?_ ?_)
      · simp [Working, phase]
      · simp [Working]
  | releaseState phase cleared =>
      refine observed_aside found rfl undecided (.inr (by simp)) (.leave _ ?_ ?_)
      · simp [Working, phase]
      · simp [Working]

/-- A new invocation starts with the current list. -/
private theorem observed_join {impl : SignalImpl} (present : w.heap.impl = some impl)
    (invocations : w'.invocations = w.invocations ++ [w.newInvocation impl])
    (lists : ∀ s, w'.listOf s = w.listOf s)
    (undecided : ∀ b todo locked,
      w.critical = some (.grabTrackedObjects (.iterator i) b todo locked) → w'.critical ≠ none) :
    Observed i w a w' (seen i w w') := by
  rcases Nat.lt_trichotomy i w.invocations.length with old | rfl | young
  · refine observed_same ?_ undecided
    rw [invocations, List.getElem?_append_left old]
  · have absent : w.invocations[w.invocations.length]? = none := by simp
    have found' : w'.invocations[w.invocations.length]? = some (w.newInvocation impl) := by
      rw [invocations]
      simp
    have started : startEvents w.invocations.length w w' =
        [.start (w.heap.connectionBodies impl).list.values] := by
      simp only [startEvents, absent, found', newInvocation, Option.map_some, Option.toList_some,
        lists]
      rfl
    rw [seen, started, decideEvents_nil undecided]
    simp only [startedCalls, absent, List.append_nil]
    exact .start impl present absent found' lists
  · refine observed_same ?_ undecided
    rw [invocations, List.getElem?_eq_none_iff.mpr (by simp; omega),
      List.getElem?_eq_none_iff.mpr (by omega)]

private theorem counted_result (inv : Invocation σ) (connected : Bool) :
    (counted inv connected).result = inv.result := by
  cases connected <;> rfl

private theorem decideEvents_of {b : BodyId} {todo : List VoidWeakPtr}
    {locked : Option (Option ObjectId)}
    (critical : w.critical = some (.grabTrackedObjects (.iterator i) b todo locked))
    (ended : w'.critical = none) :
    decideEvents i w w' = [.decide b (todo.isEmpty && !w.nolockNograbBlocked b)] := by
  simp only [decideEvents, critical, ended, if_true]

private theorem undecided_of_other {j : InvocationId} {b : BodyId} {todo : List VoidWeakPtr}
    {locked : Option (Option ObjectId)}
    (critical : w.critical = some (.grabTrackedObjects (.iterator j) b todo locked))
    (other : j ≠ i) : ∀ b todo locked,
    w.critical = some (.grabTrackedObjects (.iterator i) b todo locked) → w'.critical ≠ none := by
  intro b' todo' locked' taken
  rw [critical] at taken
  cases taken
  exact absurd rfl other

theorem Effect.observed (effect : Effect w a w') (placed : w.SectionPlaced) :
    Observed i w a w' (seen i w w') := by
  have still : ∀ {u : World σ}, u.critical = w.critical → ∀ b todo locked,
      w.critical = some (.grabTrackedObjects (.iterator i) b todo locked) → u.critical ≠ none := by
    intro u same b todo locked critical gone
    rw [same, critical] at gone
    cases gone
  have other : ∀ {u : World σ}, (∀ b todo locked,
      w.critical ≠ some (.grabTrackedObjects (.iterator i) b todo locked)) → ∀ b todo locked,
      w.critical = some (.grabTrackedObjects (.iterator i) b todo locked) → u.critical ≠ none :=
    fun none b todo locked critical => absurd critical (none b todo locked)
  cases effect with
  | assignCombiner combiner impl free present unique => exact observed_same rfl (still rfl)
  | replaceCombiner combiner impl free present shared => exact observed_same rfl (still rfl)
  | start impl free present shared =>
      exact observed_join present rfl (fun _ => rfl) (still rfl)
  | traverse impl kind free present => exact observed_same rfl (still rfl)
  | destroy impl present => exact observed_same rfl (still rfl)
  | keep client b p rest locked critical =>
      have undecided : ∀ b' todo locked',
          w.critical = some (.grabTrackedObjects (.iterator i) b' todo locked') →
            ((w.insertLocked client locked).enter (.grabTrackedObjects client b rest none)).critical
              ≠ none := fun _ _ _ _ => by simp [enter]
      revert undecided
      unfold insertLocked
      cases client with
      | connected => exact fun undecided => observed_same rfl undecided
      | traversal t => exact fun undecided => observed_same rfl undecided
      | iterator j =>
          dsimp only
          split
          · exact fun undecided => observed_same rfl undecided
          · rename_i inv found
            intro undecided
            refine observed_aside found rfl undecided ?_ (.stay _)
            by_cases running : inv.phase = .running
            · exact .inl running
            · exact .inr running
  | answer b todo locked u critical ended =>
      obtain ⟨store, rfl⟩ := ended.store
      exact observed_same rfl (other (by simp [critical]))
  | count t b todo locked u tr critical ended found =>
      obtain ⟨store, rfl⟩ := ended.store
      exact observed_same rfl (other (by simp [critical]))
  | commit j b locked inv critical found connected unblocked =>
      by_cases same : j = i
      · subst same
        obtain ⟨phase, inside, here⟩ := placed.grab critical found
        rw [seen, startEvents_old found, decideEvents_of critical rfl,
          callable_iff.mpr ⟨connected, unblocked⟩]
        rw [startedCalls_idle found (set_here found) (.inr (by simp))]
        exact .commit inv _ b found (set_here found) phase here rfl rfl rfl rfl
      · exact observed_same (set_other same) (undecided_of_other critical same)
  | skip j b todo locked u inv critical ended found blocked =>
      by_cases same : j = i
      · subst same
        obtain ⟨phase, inside, here⟩ := placed.grab critical found
        have decided : (todo.isEmpty && !w.nolockNograbBlocked b) = false := by
          cases ended with
          | grabbed locked => simp [blocked]
          | expired p rest expired => rfl
        obtain ⟨store, rfl⟩ := ended.store
        rw [seen, startEvents_old found, decideEvents_of critical rfl, decided]
        rw [startedCalls_idle found (set_here found) (.inr ?_)]
        · exact .skip inv _ b found (set_here found) phase here (by simpa using phase)
            (counted_state inv _) rfl (counted_result inv _)
        · simp [phase]
      · obtain ⟨store, rfl⟩ := ended.store
        exact observed_same (set_other same) (undecided_of_other critical same)
  | lost client b todo locked u critical ended missing =>
      obtain ⟨store, rfl⟩ := ended.store
      refine observed_same rfl (other fun b' todo' locked' taken => ?_)
      rw [critical] at taken
      cases taken
      simp only [SectionPlaced, critical] at placed
      obtain ⟨inv, found, _⟩ := placed
      rw [missing] at found
      cases found
  | contains t b weakPimpl pimpl locked u tr critical tested found =>
      obtain ⟨store, rfl⟩ := tested_store tested
      exact observed_same rfl (other (by simp [critical]))
  | containsLost t b weakPimpl pimpl locked u critical tested missing =>
      obtain ⟨store, rfl⟩ := tested_store tested
      exact observed_same rfl (other (by simp [critical]))
  | sweepErase it k count grabTracked after impl b list next critical present inside more here
      dead erased =>
      obtain ⟨store, same⟩ := checkExpired_store w grabTracked b
      rw [same]
      exact observed_same rfl (other (by simp [critical]))
  | sweepSkip it k count grabTracked after impl b critical present inside more here connected =>
      obtain ⟨store, same⟩ := checkExpired_store w grabTracked b
      rw [same]
      exact observed_same rfl (other (by simp [critical]))
  | sweepEnd it k count grabTracked after impl critical present done =>
      have undecided : ∀ {u : World σ}, ∀ b todo locked,
          w.critical = some (.grabTrackedObjects (.iterator i) b todo locked) →
            u.critical ≠ none := other (by simp [critical])
      unfold finishCleanup
      cases after with
      | connect arguments => exact observed_same rfl undecided
      | invoke => exact observed_join present rfl (fun _ => rfl) undecided
      | forceCleanup j =>
          dsimp only
          split
          · exact observed_same rfl undecided
          · rename_i inv found
            obtain ⟨phase, _⟩ := placed.forced critical found
            refine observed_aside found rfl undecided (.inr (by simp)) (.leave _ ?_ ?_)
            · simp [Working, phase]
            · simp [Working]
  | throwExpired j inv b free found phase here =>
      exact observed_aside found rfl (undecided_of_free free) (.inl phase) (.throws true phase)
  | move j inv inv' found move => exact observed_move found move
  | reachEnd j inv free found phase atEnd callable =>
      exact observed_aside found rfl (undecided_of_free free) (.inr (by simp))
        (.reachEnd inv.iter none phase atEnd)
  | destroyCache j inv free found phase active =>
      refine observed_aside found rfl (undecided_of_free free) (.inr (by simp)) (.leave _ ?_ ?_)
      · simp [Working, phase]
      · simp [Working]
  | walk t tr tr' found walk => exact observed_same rfl (still rfl)
  | outside w' outside =>
      exact observed_same (by rw [outside.invocations]) (still outside.critical)
  | fault u f cause u_eq =>
      rcases u_eq with rfl | ⟨grabTracked, b, rfl⟩
      · exact observed_same rfl (still rfl)
      · obtain ⟨store, same⟩ := checkExpired_store w grabTracked b
        rw [same]
        exact observed_same rfl (still rfl)
  | disconnect b free alive => exact observed_same rfl (undecided_of_free free)
  | walkDisconnect t tr b free found inside here targets =>
      exact observed_same rfl (undecided_of_free free)
  | grabStart client b free ready => exact observed_same rfl (undecided_of_free free)
  | _ => exact observed_same rfl fun _ _ _ _ => by simp [enter]

end World

/-! ### Visits -/

/-- What happened at one position of the iterator. -/
structure Visit where
  body : BodyId
  callable : Bool
  calls : Nat
deriving DecidableEq, Repr

def Visit.history (visit : Visit) : List CallEvent :=
  .decide visit.body visit.callable :: List.replicate visit.calls (.call visit.body)

/-- Called once if it was callable, else not at all. -/
def Visit.Once (visit : Visit) : Prop := visit.calls = if visit.callable then 1 else 0

/-- The decisions among the events, in their order. -/
def decisions (events : List CallEvent) : List (BodyId × Bool) :=
  events.filterMap fun event =>
    match event with
    | .decide b callable => some (b, callable)
    | _ => none

/-- The calls among the events, in their order. -/
def calls (events : List CallEvent) : List BodyId :=
  events.filterMap fun event =>
    match event with
    | .call b => some b
    | _ => none

theorem decisions_history (visits : List Visit) :
    decisions (visits.flatMap Visit.history) =
      visits.map fun visit => (visit.body, visit.callable) := by
  induction visits with
  | nil => rfl
  | cons visit rest ih =>
      have none : ∀ n, decisions (List.replicate n (.call visit.body)) = [] := by
        intro n
        simp [decisions]
      unfold decisions at none ih ⊢
      simp [Visit.history, ih, none]

theorem calls_history (visits : List Visit) :
    calls (visits.flatMap Visit.history) =
      visits.flatMap fun visit => List.replicate visit.calls visit.body := by
  induction visits with
  | nil => rfl
  | cons visit rest ih =>
      have all : ∀ n, calls (List.replicate n (.call visit.body)) =
          List.replicate n visit.body := by
        intro n
        simp [calls]
      unfold calls at all ih ⊢
      simp [Visit.history, ih, all]

/-- When every callable connection was called once, the calls are the callable ones. -/
theorem calls_once {visits : List Visit} (once : ∀ visit ∈ visits, visit.Once) :
    calls (visits.flatMap Visit.history) =
      ((visits.map fun visit => (visit.body, visit.callable)).filter Prod.snd).map Prod.fst := by
  rw [calls_history]
  induction visits with
  | nil => rfl
  | cons visit rest ih =>
      have tail := ih fun other member => once other (List.mem_cons_of_mem visit member)
      have head : visit.calls = if visit.callable then 1 else 0 := once visit List.mem_cons_self
      rw [List.flatMap_cons, tail, head]
      cases callable : visit.callable <;> simp [callable]

namespace World

variable {w w' : World σ} {a : Action σ} {i : InvocationId}

/-- The combiner dereferences each position once and goes on to the end, and the
slots that the invocation calls return normally. -/
structure PlainUse (i : InvocationId) (w : World σ) (a : Action σ) : Prop where
  returns : ∀ expiredSlot, a ≠ .slotThrows i expiredSlot
  increment : a = .increment i → ∀ inv, w.invocations[i]? = some inv → inv.result ≠ none
  finish : a = .finish i → ∀ inv, w.invocations[i]? = some inv → inv.iter.node = none

/-- Where the invocation stands in its snapshot after these visits.  `plain` says
that it has been used plainly so far. -/
inductive Standing (plain : Prop) (w : World σ) (inv : Invocation σ) (snapshot : List BodyId) :
    List Visit → Prop
  | searching (s : StateId) (before rest : List (Nat × BodyId)) (visits : List Visit)
      (state : inv.localState = some s) (phase : inv.phase = .searching)
      (nodes : (w.listOf s).list.nodes = before ++ rest)
      (iter : inv.iter = (w.listOf s).list.iteratorTo rest)
      (values : snapshot = (before ++ rest).map Prod.snd)
      (visited : visits.map Visit.body = before.map Prod.snd) (fresh : inv.result = none)
      (once : plain → ∀ visit ∈ visits, visit.Once) : Standing plain w inv snapshot visits
  | committed (s : StateId) (before later : List (Nat × BodyId)) (node : Nat × BodyId)
      (visits : List Visit) (visit : Visit) (state : inv.localState = some s)
      (phase : inv.phase = .ready ∨ inv.phase = .running ∧ inv.result = none)
      (nodes : (w.listOf s).list.nodes = before ++ node :: later)
      (iter : inv.iter = (w.listOf s).list.iteratorTo (node :: later))
      (values : snapshot = (before ++ node :: later).map Prod.snd)
      (visited : visits.map Visit.body = before.map Prod.snd)
      (here : visit.body = node.2) (callable : visit.callable = true)
      (once : plain → ∀ other ∈ visits, other.Once)
      (calls : plain → visit.calls = if inv.phase = .ready ∧ inv.result = none then 0 else 1) :
      Standing plain w inv snapshot (visits ++ [visit])
  | ended (visits : List Visit) (phase : inv.phase = .ready) (atEnd : inv.iter.node = none)
      (visited : visits.map Visit.body = snapshot)
      (once : plain → ∀ visit ∈ visits, visit.Once) : Standing plain w inv snapshot visits
  | quit (visits : List Visit) (phase : ¬ Working inv)
      (visited : visits.map Visit.body <+: snapshot)
      (complete : plain → visits.map Visit.body = snapshot ∧ ∀ visit ∈ visits, visit.Once) :
      Standing plain w inv snapshot visits

variable {plain : Prop} {inv inv' : Invocation σ} {snapshot : List BodyId} {visits : List Visit}

theorem Standing.congr (standing : Standing plain w inv snapshot visits)
    (kept : ∀ s, inv.localState = some s → w'.listOf s = w.listOf s)
    (state : inv'.localState = inv.localState) (phase : inv'.phase = inv.phase)
    (iter : inv'.iter = inv.iter) (result : inv'.result = inv.result) :
    Standing plain w' inv' snapshot visits := by
  cases standing with
  | searching s before rest visits held searching nodes here values visited fresh once =>
      refine .searching s before rest visits (state.trans held) (phase.trans searching) ?_ ?_ values
        visited (result.trans fresh) once
      · rw [kept s held]
        exact nodes
      · rw [kept s held]
        exact iter.trans here
  | committed s before later node visits visit held stands nodes at_ values visited here callable
      once calls =>
      refine .committed s before later node visits visit (state.trans held) ?_ ?_ ?_ values visited
        here callable once ?_
      · rw [phase, result]
        exact stands
      · rw [kept s held]
        exact nodes
      · rw [kept s held]
        exact iter.trans at_
      · rw [phase, result]
        exact calls
  | ended visits ready atEnd visited once =>
      exact .ended visits (phase.trans ready) (by rw [iter]; exact atEnd) visited once
  | quit visits stopped visited complete =>
      refine .quit visits ?_ visited complete
      unfold Working at stopped ⊢
      rw [phase]
      exact stopped

theorem newInvocation_standing {impl : SignalImpl} :
    Standing plain w (w.newInvocation impl) (w.heap.connectionBodies impl).list.values [] := by
  by_cases empty : (w.heap.connectionBodies impl).begin = (w.heap.connectionBodies impl).past
  · have none : (w.heap.connectionBodies impl).list.nodes = [] :=
      iteratorTo_injective (List.nil_append _).symm (List.append_nil _).symm empty
    refine .ended [] ?_ ?_ ?_ (fun _ visit member => by cases member)
    · simp only [newInvocation, if_pos empty]
    · simp only [newInvocation, empty]
      rfl
    · simp [LinkedList.values, none]
  · refine .searching impl.sharedState [] (w.heap.connectionBodies impl).list.nodes [] rfl ?_ rfl
      rfl rfl rfl rfl (fun _ visit member => by cases member)
    simp only [newInvocation, if_neg empty]

/-- Before a search has decided, the iterator is at the first node not visited. -/
theorem Standing.searched (standing : Standing plain w inv snapshot visits)
    (phase : inv.phase = .searching) {b : BodyId}
    (here : w.bodyAt inv.localState inv.iter = some b) :
    ∃ s before later node, inv.localState = some s ∧
      (w.listOf s).list.nodes = before ++ node :: later ∧
      inv.iter = (w.listOf s).list.iteratorTo (node :: later) ∧
      snapshot = (before ++ node :: later).map Prod.snd ∧
      visits.map Visit.body = before.map Prod.snd ∧ node.2 = b ∧ inv.result = none ∧
      (plain → ∀ visit ∈ visits, visit.Once) := by
  cases standing with
  | searching s before rest visits state searching nodes iter values visited fresh once =>
      cases rest with
      | nil =>
          rw [state, iter] at here
          exact absurd here (by simp [World.bodyAt, LinkedList.value?, LinkedList.iteratorTo,
            firstNode])
      | cons node later =>
          have found : w.bodyAt inv.localState inv.iter = some node.2 := by
            rw [state, iter]
            exact value?_iteratorTo nodes
          cases found.symm.trans here
          exact ⟨s, before, later, node, state, nodes, iter, values, visited, rfl, fresh, once⟩
  | committed s before later node visits visit state stands =>
      rw [phase] at stands
      rcases stands with ready | ⟨running, _⟩
      · cases ready
      · cases running
  | ended visits ready =>
      rw [phase] at ready
      cases ready
  | quit visits stopped => exact absurd (.inl phase) stopped

theorem Standing.commit (standing : Standing plain w inv snapshot visits) {b : BodyId}
    (kept : ∀ s, inv.localState = some s → w'.listOf s = w.listOf s)
    (phase : inv.phase = .searching) (here : w.bodyAt inv.localState inv.iter = some b)
    (phase' : inv'.phase = .ready) (state : inv'.localState = inv.localState)
    (iter : inv'.iter = inv.iter) (result : inv'.result = inv.result) :
    Standing plain w' inv' snapshot (visits ++ [⟨b, true, 0⟩]) := by
  obtain ⟨s, before, later, node, held, nodes, at_, values, visited, rfl, fresh, once⟩ :=
    standing.searched phase here
  refine .committed s before later node visits _ (state.trans held) (.inl phase') ?_ ?_ values
    visited rfl rfl once ?_
  · rw [kept s held]
    exact nodes
  · rw [kept s held]
    exact iter.trans at_
  · intro _
    rw [if_pos ⟨phase', result.trans fresh⟩]

theorem Standing.skip (standing : Standing plain w inv snapshot visits) {b : BodyId}
    (kept : ∀ s, inv.localState = some s → w'.listOf s = w.listOf s)
    (phase : inv.phase = .searching) (here : w.bodyAt inv.localState inv.iter = some b)
    (phase' : inv'.phase = .searching) (state : inv'.localState = inv.localState)
    (iter : inv'.iter = w.iteratorAfter inv.localState inv.iter)
    (result : inv'.result = inv.result) :
    Standing plain w' inv' snapshot (visits ++ [⟨b, false, 0⟩]) := by
  obtain ⟨s, before, later, node, held, nodes, at_, values, visited, rfl, fresh, once⟩ :=
    standing.searched phase here
  refine .searching s (before ++ [node]) later _ (state.trans held) phase' ?_ ?_ ?_ ?_
    (result.trans fresh) ?_
  · rw [kept s held, nodes]
    simp
  · rw [iter, kept s held, held, at_]
    exact next_iteratorTo nodes
  · rw [values]
    simp
  · simp [visited]
  · intro plainly visit member
    rcases List.mem_append.mp member with old | new
    · exact once plainly visit old
    · cases List.mem_singleton.mp new
      rfl

/-- A call belongs to the last visit. -/
theorem Standing.call (standing : Standing plain w inv snapshot visits) {b : BodyId}
    (kept : ∀ s, inv.localState = some s → w'.listOf s = w.listOf s)
    (phase : inv.phase = .ready) (inside : inv.iter.node ≠ none) (first : inv.result = none)
    (here : w.bodyAt inv.localState inv.iter = some b) :
    ∃ earlier visit, visits = earlier ++ [visit] ∧ visit.body = b ∧ visit.callable = true ∧
      Standing plain w' { inv with phase := .running } snapshot
        (earlier ++ [{ visit with calls := visit.calls + 1 }]) := by
  cases standing with
  | searching s before rest visits state searching =>
      rw [phase] at searching
      cases searching
  | committed s before later node visits visit held stands nodes at_ values visited same callable
      once calls =>
      have found : w.bodyAt inv.localState inv.iter = some node.2 := by
        rw [held, at_]
        exact value?_iteratorTo nodes
      cases found.symm.trans here
      refine ⟨visits, visit, rfl, same, callable, ?_⟩
      refine .committed s before later node visits _ held (.inr ⟨rfl, first⟩) ?_ ?_ values visited
        same callable once ?_
      · rw [kept s held]
        exact nodes
      · rw [kept s held]
        exact at_
      · intro plainly
        have none := calls plainly
        rw [if_pos ⟨phase, first⟩] at none
        simp [none]
  | ended visits ready atEnd => exact absurd atEnd inside
  | quit visits stopped => exact absurd (.inr (.inl phase)) stopped

/-- A step that shows nothing adds no visit. -/
theorem Standing.aside (standing : Standing plain w inv snapshot visits)
    (found : w.invocations[i]? = some inv) (placed : w.Placed inv)
    (kept : ∀ s, inv.localState = some s → w'.listOf s = w.listOf s)
    (plainly : plain → PlainUse i w a) (how : Aside w i inv a inv') :
    Standing plain w' inv' snapshot visits := by
  have same : Standing plain w' inv snapshot visits := standing.congr kept rfl rfl rfl rfl
  cases how with
  | stay trackedPtrs => exact standing.congr kept rfl rfl rfl rfl
  | reachEnd callableIter activeSlot phase atEnd =>
      cases standing with
      | searching s before rest visits state searching nodes iter values visited fresh once =>
          cases rest with
          | nil =>
              refine .ended visits rfl atEnd ?_ once
              rw [visited, values, List.append_nil]
          | cons node later =>
              rw [iter] at atEnd
              cases atEnd
      | committed s before later node visits visit state stands =>
          rw [phase] at stands
          rcases stands with ready | ⟨running, _⟩
          · cases ready
          · cases running
      | ended visits ready =>
          rw [phase] at ready
          cases ready
      | quit visits stopped => exact absurd (.inl phase) stopped
  | returns result phase =>
      cases same with
      | searching s before rest visits state searching =>
          rw [phase] at searching
          cases searching
      | committed s before later node visits visit state stands nodes iter values visited here
          callable once calls =>
          refine .committed s before later node visits visit state (.inl rfl) nodes iter values
            visited here callable once ?_
          intro plainly
          have one := calls plainly
          rw [if_neg (by simp [phase])] at one
          rw [if_neg (by simp)]
          exact one
      | ended visits ready =>
          rw [phase] at ready
          cases ready
      | quit visits stopped => exact absurd (.inr (.inr phase)) stopped
  | throws expiredSlot phase =>
      cases same with
      | searching s before rest visits state searching =>
          rw [phase] at searching
          cases searching
      | committed s before later node visits visit state stands nodes iter values visited here
          callable once calls =>
          refine .committed s before later node visits visit state (.inl rfl) nodes iter values
            visited here callable once ?_
          exact fun used => absurd rfl ((plainly used).returns expiredSlot)
      | ended visits ready =>
          rw [phase] at ready
          cases ready
      | quit visits stopped => exact absurd (.inr (.inr phase)) stopped
  | increment phase inside =>
      have callable := placed.committed (.inl phase) inside
      cases standing with
      | searching s before rest visits state searching =>
          rw [phase] at searching
          cases searching
      | committed s before later node visits visit held stands nodes at_ values visited here
          callable' once calls =>
          have next : w.iteratorAfter inv.localState inv.iter =
              (w.listOf s).list.iteratorTo later := by
            rw [held, at_]
            exact next_iteratorTo nodes
          have moved : w.iteratorAfter inv.localState inv.iter ≠ inv.callableIter := by
            intro stays
            have nodes' : (w.listOf s).list.nodes = (before ++ [node]) ++ later := by simp [nodes]
            have equal := iteratorTo_injective nodes' nodes
              (next.symm.trans (stays.trans (callable.trans at_)))
            exact absurd (congrArg List.length equal) (by simp)
          refine .searching s (before ++ [node]) later _ held (if_neg moved) ?_ ?_ ?_ ?_ rfl ?_
          · rw [kept s held, nodes]
            simp
          · rw [kept s held]
            exact next
          · rw [values]
            simp
          · simp [visited, here]
          · intro used other member
            rcases List.mem_append.mp member with old | new
            · exact once used other old
            · cases List.mem_singleton.mp new
              have returned := (plainly used).increment rfl inv found
              have one := calls used
              rw [if_neg fun waiting => returned waiting.2] at one
              rw [Visit.Once, one, callable']
              rfl
      | ended visits ready atEnd => exact absurd atEnd inside
      | quit visits stopped => exact absurd (.inr (.inl phase)) stopped
  | finish phase =>
      have stopped : ¬ Working { inv with phase := .janitor } := by simp [Working]
      cases standing with
      | searching s before rest visits state searching =>
          rw [phase] at searching
          cases searching
      | committed s before later node visits visit held stands nodes at_ values visited here
          callable once calls =>
          refine .quit _ stopped ?_ fun used => ?_
          · rw [values]
            exact ⟨later.map Prod.snd, by simp [visited, here]⟩
          · have atEnd := (plainly used).finish rfl inv found
            rw [at_] at atEnd
            cases atEnd
      | ended visits ready atEnd visited once =>
          exact .quit visits stopped (visited ▸ List.prefix_rfl) fun used => ⟨visited, once used⟩
      | quit visits stopped' visited complete => exact .quit visits stopped visited complete
  | leave inv' before after =>
      cases standing with
      | searching s rest later visits state searching => exact absurd (.inl searching) before
      | committed s rest later node visits visit held stands =>
          refine absurd ?_ before
          rcases stands with ready | ⟨running, _⟩
          · exact .inr (.inl ready)
          · exact .inr (.inr running)
      | ended visits ready => exact absurd (.inr (.inl ready)) before
      | quit visits stopped visited complete => exact .quit visits after visited complete

/-! ### The history of one invocation -/

/-- One visit after the other, from the snapshot on. -/
structure Told (plain : Prop) (w : World σ) (inv : Invocation σ) (events : List CallEvent)
    (snapshot : List BodyId) (visits : List Visit) : Prop where
  events : events = .start snapshot :: visits.flatMap Visit.history
  standing : Standing plain w inv snapshot visits
  uncalled : ∀ visit ∈ visits, visit.callable = false → visit.calls = 0
  distinct : snapshot.Nodup
  known : ∀ b ∈ snapshot, b < w.nextBody

structure Chronicle (plain : Prop) (i : InvocationId) (events : List CallEvent) (w : World σ) :
    Prop where
  isolated : w.Isolated
  current : w.CurrentDistinct
  absent : w.invocations[i]? = none → events = []
  told : ∀ inv, w.invocations[i]? = some inv →
    ∃ snapshot visits, Told plain w inv events snapshot visits

theorem construct_chronicle (combiner : σ.Combiner)
    (defaultCompare groupCompare : σ.Group → σ.Group → Bool) (owners : ObjectId → Nat) :
    Chronicle plain i [] (World.construct combiner defaultCompare groupCompare owners) where
  isolated := construct_isolated combiner defaultCompare groupCompare owners
  current impl present := by
    cases present
    exact List.nodup_nil
  absent _ := rfl
  told inv found := by cases found

/-- A running slot neither disturbs the positions of other invocations. -/
private theorem Told.later {events : List CallEvent} (told : Told plain w inv events snapshot visits)
    (standing : Standing plain w' inv' snapshot visits) (bodies : w.nextBody ≤ w'.nextBody) :
    Told plain w' inv' events snapshot visits where
  events := told.events
  standing := standing
  uncalled := told.uncalled
  distinct := told.distinct
  known b member := Nat.lt_of_lt_of_le (told.known b member) bodies

private theorem Told.decide {events : List CallEvent} {b : BodyId} {callable : Bool}
    (told : Told plain w inv events snapshot visits)
    (standing : Standing plain w' inv' snapshot (visits ++ [⟨b, callable, 0⟩]))
    (bodies : w.nextBody ≤ w'.nextBody) :
    Told plain w' inv' (events ++ [.decide b callable]) snapshot (visits ++ [⟨b, callable, 0⟩]) where
  events := by
    rw [told.events]
    simp [Visit.history]
  standing := standing
  uncalled visit member off := by
    rcases List.mem_append.mp member with old | new
    · exact told.uncalled visit old off
    · cases List.mem_singleton.mp new
      rfl
  distinct := told.distinct
  known b member := Nat.lt_of_lt_of_le (told.known b member) bodies

private theorem Told.call {events : List CallEvent} {earlier : List Visit} {visit : Visit}
    (told : Told plain w inv events snapshot (earlier ++ [visit])) (callable : visit.callable = true)
    (standing : Standing plain w' inv' snapshot
      (earlier ++ [{ visit with calls := visit.calls + 1 }]))
    (bodies : w.nextBody ≤ w'.nextBody) :
    Told plain w' inv' (events ++ [.call visit.body]) snapshot
      (earlier ++ [{ visit with calls := visit.calls + 1 }]) where
  events := by
    rw [told.events]
    simp [Visit.history, List.replicate_succ']
  standing := standing
  uncalled other member off := by
    rcases List.mem_append.mp member with old | new
    · exact told.uncalled other (List.mem_append_left _ old) off
    · cases List.mem_singleton.mp new
      rw [callable] at off
      cases off
  distinct := told.distinct
  known b member := Nat.lt_of_lt_of_le (told.known b member) bodies

theorem Chronicle.step {events : List CallEvent} (chronicle : Chronicle plain i events w)
    (unread : ListUnread .invocation w a) (plainly : plain → PlainUse i w a)
    (stepped : w.step a = some w') : Chronicle plain i (events ++ w.callEvents i a) w' := by
  obtain ⟨sound, effect⟩ := step_effect stepped
  have isolated := chronicle.isolated
  have bodies := effect.nextBody_le
  have observed : Observed i w a w' (seen i w w') :=
    effect.observed isolated.positioned.criticalPlaced
  have shown : w.callEvents i a = seen i w w' := by simp only [callEvents, stepped]
  rw [shown]
  generalize seen i w w' = new at observed
  have kept : ∀ inv, w.invocations[i]? = some inv → ∀ s, inv.localState = some s →
      w'.listOf s = w.listOf s := by
    intro inv found s state
    refine isolated.kept effect s (List.mem_map.mpr ⟨inv, List.mem_of_getElem? found, state⟩)
  refine ⟨isolated.step unread stepped, chronicle.current.step isolated.listed effect, ?_, ?_⟩
  · intro absent'
    cases observed with
    | same unchanged => simpa using chronicle.absent (unchanged.symm.trans absent')
    | start impl present absent found' => cases absent'.symm.trans found'
    | commit inv inv' b found found' => cases absent'.symm.trans found'
    | skip inv inv' b found found' => cases absent'.symm.trans found'
    | call inv b found found' => cases absent'.symm.trans found'
    | aside inv inv' found found' => cases absent'.symm.trans found'
  · intro inv' found'
    cases observed with
    | same unchanged =>
        have found := unchanged.symm.trans found'
        obtain ⟨snapshot, visits, told⟩ := chronicle.told inv' found
        rw [List.append_nil]
        exact ⟨snapshot, visits,
          told.later (told.standing.congr (kept inv' found) rfl rfl rfl rfl) bodies⟩
    | start impl present absent joined lists =>
        cases found'.symm.trans joined
        refine ⟨(w.heap.connectionBodies impl).list.values, [], ?_⟩
        rw [chronicle.absent absent]
        exact {
          events := rfl
          standing := newInvocation_standing.congr (fun s _ => lists s) rfl rfl rfl rfl
          uncalled := fun visit member => by cases member
          distinct := chronicle.current impl present
          known := fun b member =>
            Nat.lt_of_lt_of_le (isolated.listed b ⟨_, member⟩) bodies }
    | commit inv after b found changed phase here phase' state iter result =>
        cases found'.symm.trans changed
        obtain ⟨snapshot, visits, told⟩ := chronicle.told inv found
        exact ⟨snapshot, _, told.decide
          (told.standing.commit (kept inv found) phase here phase' state iter result) bodies⟩
    | skip inv after b found changed phase here phase' state iter result =>
        cases found'.symm.trans changed
        obtain ⟨snapshot, visits, told⟩ := chronicle.told inv found
        exact ⟨snapshot, _, told.decide
          (told.standing.skip (kept inv found) phase here phase' state iter result) bodies⟩
    | call inv b found changed phase inside first here =>
        cases found'.symm.trans changed
        obtain ⟨snapshot, visits, told⟩ := chronicle.told inv found
        obtain ⟨earlier, visit, rfl, rfl, callable, standing⟩ :=
          told.standing.call (kept inv found) phase inside first here
        exact ⟨snapshot, _, told.call callable standing bodies⟩
    | aside inv after found changed how =>
        cases found'.symm.trans changed
        obtain ⟨snapshot, visits, told⟩ := chronicle.told inv found
        have placed := isolated.positioned.placed inv (List.mem_of_getElem? found)
        rw [List.append_nil]
        exact ⟨snapshot, visits,
          told.later (told.standing.aside found placed (kept inv found) plainly how) bodies⟩

theorem Chronicle.run {events : List CallEvent} {final : World σ} {actions : List (Action σ)}
    (chronicle : Chronicle plain i events w)
    (unread : Runs.Guarded World.step (ListUnread .invocation) w actions)
    (plainly : plain → Runs.Guarded World.step (PlainUse i) w actions)
    (ran : Runs.run World.step w actions = some final) :
    Chronicle plain i (events ++ Runs.outputs World.step (callEvents i) w actions) final := by
  induction actions generalizing w events with
  | nil =>
      have same : w = final := Option.some.inj ran
      subst same
      simpa only [Runs.outputs, List.append_nil] using chronicle
  | cons a rest ih =>
      obtain ⟨next, stepped, ranRest⟩ := Runs.run_cons ran
      have tail := ih (chronicle.step unread.1 (fun used => (plainly used).1) stepped)
        (unread.2 next stepped) (fun used => (plainly used).2 next stepped) ranRest
      simpa only [Runs.outputs, stepped, List.append_assoc] using tail

/-! ### An invocation is never stuck -/

end World

/-- The invocation whose own step an action is; a slot function is not the library's. -/
def Action.invocation : Action σ → Option InvocationId
  | .clearTracked i => some i
  | .lockNext i => some i
  | .reachEnd i => some i
  | .dereference i => some i
  | .increment i => some i
  | .finish i => some i
  | .janitor i => some i
  | .destroyCache i => some i
  | .releaseState i => some i
  | _ => none

namespace World

variable {w w' : World σ} {a : Action σ} {i : InvocationId} {inv : Invocation σ}

/-- Neither a slot that throws nor a step of the combiner. -/
private theorem PlainUse.of_other (returns : ∀ expiredSlot, a ≠ .slotThrows i expiredSlot)
    (increment : a ≠ .increment i) (finish : a ≠ .finish i) : PlainUse i w a :=
  ⟨returns, fun same => absurd same increment, fun same => absurd same finish⟩

private theorem clear_enabled (sound : w.fault = none) (free : w.critical = none)
    (found : w.invocations[i]? = some inv) (held : inv.trackedPtrs ≠ [])
    (phase : inv.phase = .searching ∧ inv.iter.node ≠ none ∨ inv.phase = .releasing) :
    (w.step (.clearTracked i)).isSome := by
  have outside : w.grabbing i = false := by simp only [grabbing, free]
  simp [World.step, sound, World.clearTracked, found, held, outside, if_pos phase]

private theorem janitor_enabled (sound : w.fault = none) (free : w.critical = none)
    (found : w.invocations[i]? = some inv) (phase : inv.phase = .janitor) :
    (w.step (.janitor i)).isSome := by
  simp only [World.step, sound, World.janitor, found, phase, free, Option.isSome_none,
    Bool.false_eq_true, if_false, if_true]
  split
  · cases present : w.heap.impl with
    | none => rfl
    | some impl =>
        dsimp only
        split
        · rfl
        · cases unique : w.unique impl.sharedState with
          | true => simp [present]
          | false => simp [setHeap, Heap.copyConnectionBodies]
  · rfl

theorem search_enabled (sound : w.fault = none) (free : w.critical = none)
    (found : w.invocations[i]? = some inv) (phase : inv.phase = .searching) :
    ∃ a : Action σ, (a = .reachEnd i ∨ a = .lockNext i ∨ a = .clearTracked i) ∧
      (w.step a).isSome := by
  by_cases inside : inv.iter.node = none
  · refine ⟨.reachEnd i, .inl rfl, ?_⟩
    simp only [World.step, sound, World.reachEnd, found, phase, inside, free, Option.isSome_none,
      Bool.false_eq_true, if_false, and_self, if_true]
    split
    · rfl
    · split <;> rfl
  · by_cases cleared : inv.trackedPtrs = []
    · refine ⟨.lockNext i, .inr (.inl rfl), ?_⟩
      simp only [World.step, sound, World.lockNext, found, phase, inside, free, cleared,
        Option.isSome_none, Bool.false_eq_true, if_false, ne_eq, not_false_eq_true, and_self,
        if_true]
      split <;> rfl
    · exact ⟨.clearTracked i, .inr (.inr rfl),
        clear_enabled sound free found cleared (.inl ⟨phase, inside⟩)⟩

theorem dereference_enabled (sound : w.fault = none) (found : w.invocations[i]? = some inv)
    (phase : inv.phase = .ready) (inside : inv.iter.node ≠ none) :
    (w.step (.dereference i)).isSome := by
  simp only [World.step, sound, World.dereference, found, phase, inside, Option.isSome_none,
    Bool.false_eq_true, if_false, ne_eq, not_false_eq_true, and_self, if_true]
  split
  · rfl
  · split
    · rfl
    · split
      · rfl
      · split
        · rfl
        · split <;> rfl

theorem increment_enabled (sound : w.fault = none) (found : w.invocations[i]? = some inv)
    (phase : inv.phase = .ready) (inside : inv.iter.node ≠ none) :
    (w.step (.increment i)).isSome := by
  simp only [World.step, sound, World.increment, found, phase, inside, Option.isSome_none,
    Bool.false_eq_true, if_false, ne_eq, not_false_eq_true, and_self, if_true]
  split <;> rfl

/-- The destructors after the combiner. -/
theorem unwind_enabled (sound : w.fault = none) (free : w.critical = none)
    (found : w.invocations[i]? = some inv) (left : ¬ Working inv) (progress : inv.phase ≠ .done) :
    ∃ a : Action σ, (a = .janitor i ∨ a = .destroyCache i ∨ a = .releaseState i ∨
      a = .clearTracked i) ∧ (w.step a).isSome := by
  cases phase : inv.phase with
  | searching => exact absurd (.inl phase) left
  | ready => exact absurd (.inr (.inl phase)) left
  | running => exact absurd (.inr (.inr phase)) left
  | janitor => exact ⟨.janitor i, .inl rfl, janitor_enabled sound free found phase⟩
  | destructing =>
      refine ⟨.destroyCache i, .inr (.inl rfl), ?_⟩
      simp only [World.step, sound, World.destroyCache, found, phase, free, Option.isSome_none,
        Bool.false_eq_true, if_false, if_true]
      split <;> rfl
  | releasing =>
      by_cases cleared : inv.trackedPtrs = []
      · refine ⟨.releaseState i, .inr (.inr (.inl rfl)), ?_⟩
        simp [World.step, sound, World.releaseState, found, phase, cleared]
      · exact ⟨.clearTracked i, .inr (.inr (.inr rfl)),
          clear_enabled sound free found cleared (.inr phase)⟩
  | done => exact absurd phase progress

/-- With the mutex free an invocation that is not over can always take a step of its
own, unless a slot is running; used plainly it stays so. -/
theorem invocation_enabled (sound : w.fault = none) (free : w.critical = none)
    (found : w.invocations[i]? = some inv) (idle : inv.phase ≠ .running)
    (progress : inv.phase ≠ .done) :
    ∃ a : Action σ, a.invocation = some i ∧ PlainUse i w a ∧ (w.step a).isSome := by
  cases phase : inv.phase with
  | searching =>
      obtain ⟨a, rfl | rfl | rfl, enabled⟩ := search_enabled sound free found phase
      · exact ⟨.reachEnd i, rfl, .of_other (by simp) (by simp) (by simp), enabled⟩
      · exact ⟨.lockNext i, rfl, .of_other (by simp) (by simp) (by simp), enabled⟩
      · exact ⟨.clearTracked i, rfl, .of_other (by simp) (by simp) (by simp), enabled⟩
  | ready =>
      by_cases inside : inv.iter.node = none
      · refine ⟨.finish i, rfl, ⟨(by simp), (by simp), ?_⟩, ?_⟩
        · intro _ other found'
          cases found.symm.trans found'
          exact inside
        · simp [World.step, sound, World.finish, found, phase]
      · cases result : inv.result with
        | none =>
            exact ⟨.dereference i, rfl, .of_other (by simp) (by simp) (by simp),
              dereference_enabled sound found phase inside⟩
        | some value =>
            refine ⟨.increment i, rfl, ⟨(by simp), ?_, (by simp)⟩, ?_⟩
            · intro _ other found'
              cases found.symm.trans found'
              simp [result]
            · exact increment_enabled sound found phase inside
  | running => exact absurd phase idle
  | done => exact absurd phase progress
  | _ =>
      obtain ⟨a, rfl | rfl | rfl | rfl, enabled⟩ :=
        unwind_enabled sound free found (by simp [Working, phase]) progress
      · exact ⟨.janitor i, rfl, .of_other (by simp) (by simp) (by simp), enabled⟩
      · exact ⟨.destroyCache i, rfl, .of_other (by simp) (by simp) (by simp), enabled⟩
      · exact ⟨.releaseState i, rfl, .of_other (by simp) (by simp) (by simp), enabled⟩
      · exact ⟨.clearTracked i, rfl, .of_other (by simp) (by simp) (by simp), enabled⟩

end World

end Signals2
