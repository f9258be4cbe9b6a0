/-
Where invocations stand in their snapshots.  A step changes one invocation, or
adds one; the ways it can do so are listed as `Progress`.  While the snapshots
stay as they are, every iterator that will be used refers to a node, and the
active slot is the one the callable iterator refers to.
-/

import Signals2.Snapshots

namespace Signals2

open LinkedLists

variable {σ : SignalTemplate}

namespace World

/-- What a step can make of one invocation. -/
inductive Progress (w : World σ) (i : InvocationId) (inv : Invocation σ) :
    Action σ → Invocation σ → Prop
  | move {a : Action σ} {inv' : Invocation σ} (move : Move w i inv a inv') :
      Progress w i inv a inv'
  | insert (b : BodyId) (p : VoidWeakPtr) (rest : List VoidWeakPtr) (locked : Option ObjectId)
      (critical : w.critical =
        some (.grabTrackedObjects (.iterator i) b (p :: rest) (some locked))) :
      Progress w i inv .section { inv with trackedPtrs := inv.trackedPtrs ++ [locked] }
  | commit (b : BodyId) (locked : Option (Option ObjectId))
      (critical : w.critical = some (.grabTrackedObjects (.iterator i) b [] locked))
      (connected : (w.bodies b).connected = true) (unblocked : w.blocked b = false) :
      Progress w i inv .section
        { inv with
          connectedSlotCount := inv.connectedSlotCount + 1
          callableIter := inv.iter
          activeSlot := some b
          phase := .ready }
  | skip (b : BodyId) (todo : List VoidWeakPtr) (locked : Option (Option ObjectId))
      (u : World σ)
      (critical : w.critical = some (.grabTrackedObjects (.iterator i) b todo locked))
      (ended : Ended w b todo locked u) (blocked : u.nolockNograbBlocked b = true) :
      Progress w i inv .section
        { counted inv (u.bodies b).connected with
          iter := w.iteratorAfter inv.localState inv.iter }
  | reachEnd (free : w.critical = none) (phase : inv.phase = .searching)
      (atEnd : inv.iter.node = none) (callable : inv.callableIter.node ≠ none) :
      Progress w i inv (.reachEnd i)
        { inv with phase := .ready, callableIter := inv.iter, activeSlot := none }
  | destroyCache (free : w.critical = none) (phase : inv.phase = .destructing)
      (active : inv.activeSlot ≠ none) :
      Progress w i inv (.destroyCache i) { inv with phase := .releasing, activeSlot := none }
  | forced (it : Iterator) (k count : Nat) (grabTracked : Bool)
      (critical : w.critical =
        some (.cleanupConnections it k count grabTracked (.forceCleanup i))) :
      Progress w i inv .section { inv with phase := .destructing }
  | throwExpired (phase : inv.phase = .running) :
      Progress w i inv (.slotThrows i true) { inv with phase := .ready }

inductive InvocationChange (w : World σ) (a : Action σ) (w' : World σ) : Prop
  | same (invocations : w'.invocations = w.invocations)
  | progress (i : InvocationId) (inv inv' : Invocation σ)
      (found : w.invocations[i]? = some inv) (how : Progress w i inv a inv')
      (invocations : w'.invocations = w.invocations.set i inv')
  | join (impl : SignalImpl) (present : w.heap.impl = some impl)
      (invocations : w'.invocations = w.invocations ++ [w.newInvocation impl])
      (lists : ∀ s, w'.listOf s = w.listOf s)

variable {w w' : World σ} {a : Action σ}

theorem Effect.invocations (effect : Effect w a w') : InvocationChange w a w' := by
  cases effect with
  | start impl free present shared => exact .join impl present rfl fun _ => rfl
  | keep client b p rest locked critical =>
      unfold insertLocked
      cases client with
      | connected => exact .same rfl
      | traversal t => exact .same rfl
      | iterator i =>
          dsimp only
          split
          · exact .same rfl
          · rename_i inv found
            exact .progress i inv _ found (.insert b p rest locked critical) rfl
  | answer b todo locked u critical ended =>
      obtain ⟨store, rfl⟩ := ended.store
      exact .same rfl
  | count t b todo locked u tr critical ended found =>
      obtain ⟨store, rfl⟩ := ended.store
      exact .same rfl
  | commit i b locked inv critical found connected unblocked =>
      exact .progress i inv _ found (.commit b locked critical connected unblocked) rfl
  | skip i b todo locked u inv critical ended found blocked =>
      refine .progress i inv _ found (.skip b todo locked u critical ended blocked) ?_
      obtain ⟨store, rfl⟩ := ended.store
      rfl
  | lost client b todo locked u critical ended missing =>
      obtain ⟨store, rfl⟩ := ended.store
      exact .same rfl
  | contains t b weakPimpl pimpl locked u tr critical tested found =>
      obtain ⟨store, rfl⟩ := tested_store tested
      exact .same rfl
  | containsLost t b weakPimpl pimpl locked u critical tested missing =>
      obtain ⟨store, rfl⟩ := tested_store tested
      exact .same rfl
  | sweepErase it i count grabTracked after impl b list next critical present inside more here
      dead erased =>
      obtain ⟨store, same⟩ := checkExpired_store w grabTracked b
      rw [same]
      exact .same rfl
  | sweepSkip it i count grabTracked after impl b critical present inside more here connected =>
      obtain ⟨store, same⟩ := checkExpired_store w grabTracked b
      rw [same]
      exact .same rfl
  | sweepEnd it i count grabTracked after impl critical present done =>
      unfold finishCleanup
      cases after with
      | connect arguments => exact .same rfl
      | invoke => exact .join impl present rfl fun _ => rfl
      | forceCleanup j =>
          dsimp only
          split
          · exact .same rfl
          · rename_i inv found
            exact .progress j inv _ found (.forced it i count grabTracked critical) rfl
  | throwExpired i inv b free found phase here =>
      exact .progress i inv _ found (.throwExpired phase) rfl
  | move i inv inv' found move => exact .progress i inv inv' found (.move move) rfl
  | reachEnd i inv free found phase atEnd callable =>
      exact .progress i inv _ found (.reachEnd free phase atEnd callable) rfl
  | destroyCache i inv free found phase active =>
      exact .progress i inv _ found (.destroyCache free phase active) rfl
  | outside w' outside => exact .same outside.invocations
  | fault u f cause u_eq =>
      rcases u_eq with rfl | ⟨grabTracked, b, rfl⟩
      · exact .same rfl
      · obtain ⟨store, same⟩ := checkExpired_store w grabTracked b
        rw [same]
        exact .same rfl
  | _ => exact .same rfl

/-- What a step makes of an invocation that has started. -/
theorem Effect.progress (effect : Effect w a w') {i : InvocationId} {inv inv' : Invocation σ}
    (found : w.invocations[i]? = some inv) (found' : w'.invocations[i]? = some inv') :
    inv' = inv ∨ Progress w i inv a inv' := by
  cases effect.invocations with
  | same invocations =>
      rw [invocations, found] at found'
      exact .inl (Option.some.inj found').symm
  | join impl present invocations lists =>
      rw [invocations, List.getElem?_append_left (List.getElem?_eq_some_iff.mp found).1,
        found] at found'
      exact .inl (Option.some.inj found').symm
  | progress j other changed here how invocations =>
      rw [invocations] at found'
      by_cases same : j = i
      · subst same
        cases found.symm.trans here
        rw [List.getElem?_set_self (List.getElem?_eq_some_iff.mp found).1] at found'
        cases found'
        exact .inr how
      · rw [List.getElem?_set_ne same, found] at found'
        exact .inl (Option.some.inj found').symm

/-! ### Positions in the snapshot -/

/-- The iterator of the invocation is still going to be used. -/
def Working (inv : Invocation σ) : Prop :=
  inv.phase = .searching ∨ inv.phase = .ready ∨ inv.phase = .running

structure Placed (w : World σ) (inv : Invocation σ) : Prop where
  iter : Working inv → inv.iter.node ≠ none → ∃ b, w.bodyAt inv.localState inv.iter = some b
  callable : Working inv → inv.callableIter.node ≠ none →
    ∃ b, w.bodyAt inv.localState inv.callableIter = some b ∧ inv.activeSlot = some b
  idle : Working inv → inv.callableIter.node = none → inv.activeSlot = none
  committed : inv.phase = .ready ∨ inv.phase = .running → inv.iter.node ≠ none →
    inv.callableIter = inv.iter
  running : inv.phase = .running → inv.iter.node ≠ none
  -- also for an invocation that is about to end
  held : ∀ b, inv.activeSlot = some b → ∃ it, w.bodyAt inv.localState it = some b
  quit : inv.phase = .releasing ∨ inv.phase = .done → inv.activeSlot = none
  progress : inv.phase = .done ↔ inv.localState = none

/-- The critical section of an iterator or of a forced cleanup has its invocation. -/
def SectionPlaced (w : World σ) : Prop :=
  match w.critical with
  | some (.grabTrackedObjects (.iterator i) b _ _) =>
      ∃ inv, w.invocations[i]? = some inv ∧ inv.phase = .searching ∧ inv.iter.node ≠ none ∧
        w.bodyAt inv.localState inv.iter = some b
  | some (.cleanupConnections _ _ _ _ (.forceCleanup i)) =>
      ∃ inv, w.invocations[i]? = some inv ∧ inv.phase = .janitor ∧
        inv.connectedSlotCount < inv.disconnectedSlotCount
  | _ => True

structure Positioned (w : World σ) : Prop where
  placed : ∀ inv ∈ w.invocations, w.Placed inv
  criticalPlaced : w.SectionPlaced

theorem Positioned.iter_here {i : InvocationId} {inv : Invocation σ} (positioned : w.Positioned)
    (found : w.invocations[i]? = some inv) (working : Working inv)
    (inside : inv.phase = .running ∨ inv.iter.node ≠ none) :
    w.bodyAt inv.localState inv.iter ≠ none := by
  have placed := positioned.placed inv (List.mem_of_getElem? found)
  have further : inv.iter.node ≠ none := inside.elim placed.running id
  obtain ⟨b, here⟩ := placed.iter working further
  simp [here]

theorem Positioned.callable_here {i : InvocationId} {inv : Invocation σ}
    (positioned : w.Positioned) (found : w.invocations[i]? = some inv) (working : Working inv)
    (inside : inv.callableIter.node ≠ none) :
    w.bodyAt inv.localState inv.callableIter ≠ none := by
  have placed := positioned.placed inv (List.mem_of_getElem? found)
  obtain ⟨b, here, _⟩ := placed.callable working inside
  simp [here]

theorem bodyAt_congr {localState : Option StateId}
    (kept : ∀ s, localState = some s → w'.listOf s = w.listOf s) (it : Iterator) :
    w'.bodyAt localState it = w.bodyAt localState it := by
  cases localState with
  | none => rfl
  | some s =>
      change (w'.listOf s).list.value? it = (w.listOf s).list.value? it
      rw [kept s rfl]

theorem Placed.congr {inv : Invocation σ} (placed : w.Placed inv)
    (same : ∀ it, w'.bodyAt inv.localState it = w.bodyAt inv.localState it) : w'.Placed inv :=
  { placed with
    iter := by simpa only [same] using placed.iter
    callable := by simpa only [same] using placed.callable
    held := by simpa only [same] using placed.held }

/-- A moved iterator refers to a node again, or is past the end. -/
theorem iteratorAfter_placed {localState : Option StateId} {it : Iterator} {b : BodyId}
    (here : w.bodyAt localState it = some b)
    (inside : (w.iteratorAfter localState it).node ≠ none) :
    ∃ later, w.bodyAt localState (w.iteratorAfter localState it) = some later := by
  cases localState with
  | none => cases here
  | some s => exact next_value here inside

theorem newInvocation_placed (impl : SignalImpl) : w.Placed (w.newInvocation impl) where
  iter working inside := begin_value inside
  callable working inside := absurd rfl inside
  idle working atEnd := rfl
  committed := by
    intro phase inside
    by_cases empty : (w.heap.connectionBodies impl).begin = (w.heap.connectionBodies impl).past
    · exact empty.symm
    · simp only [newInvocation, if_neg empty] at phase
      rcases phase with phase | phase <;> cases phase
  running phase := by
    simp only [newInvocation] at phase
    split at phase <;> cases phase
  held b active := by cases active
  quit phase := rfl
  progress := by
    simp only [newInvocation]
    split <;> simp

@[simp] theorem counted_phase (inv : Invocation σ) (connected : Bool) :
    (counted inv connected).phase = inv.phase := by
  cases connected <;> rfl

@[simp] theorem counted_callableIter (inv : Invocation σ) (connected : Bool) :
    (counted inv connected).callableIter = inv.callableIter := by
  cases connected <;> rfl

@[simp] theorem counted_active (inv : Invocation σ) (connected : Bool) :
    (counted inv connected).activeSlot = inv.activeSlot := by
  cases connected <;> rfl

@[simp] theorem counted_state (inv : Invocation σ) (connected : Bool) :
    (counted inv connected).localState = inv.localState := by
  cases connected <;> rfl

/-- An invocation that does not use its iterator any more. -/
private theorem Placed.leave {inv inv' : Invocation σ} (placed : w.Placed inv)
    (state : inv'.localState = inv.localState) (active : inv'.activeSlot = inv.activeSlot)
    (working : ¬ Working inv') (quit : inv'.phase = .releasing → inv'.activeSlot = none)
    (progress : inv'.phase ≠ .done) (before : inv.phase ≠ .done) : w.Placed inv' where
  iter now := absurd now working
  callable now := absurd now working
  idle now := absurd now working
  committed now := absurd (now.elim (fun ready => .inr (.inl ready))
    (fun running => .inr (.inr running))) working
  running now := absurd (.inr (.inr now)) working
  held b now := by
    rw [active] at now
    rw [state]
    exact placed.held b now
  quit now := by
    rcases now with releasing | done
    · exact quit releasing
    · exact absurd done progress
  progress := by
    rw [state]
    exact ⟨fun done => absurd done progress,
      fun gone => absurd (placed.progress.mpr gone) before⟩

theorem Working.not_over {inv : Invocation σ} (working : Working inv) :
    inv.phase ≠ .releasing ∧ inv.phase ≠ .done := by
  rcases working with phase | phase | phase <;> rw [phase] <;> exact ⟨(by simp), (by simp)⟩

/-- An invocation that is over, or only has its snapshot left to release. -/
private theorem Placed.of_quit {inv : Invocation σ}
    (quit : inv.phase = .releasing ∨ inv.phase = .done) (idle : inv.activeSlot = none)
    (progress : inv.phase = .done ↔ inv.localState = none) : w.Placed inv where
  iter working := absurd quit (not_or.mpr working.not_over)
  callable working := absurd quit (not_or.mpr working.not_over)
  idle _ _ := idle
  committed now := by rcases quit with phase | phase <;> simp [phase] at now
  running now := by rcases quit with phase | phase <;> simp [phase] at now
  held b active := by
    rw [idle] at active
    cases active
  quit _ := idle
  progress := progress

/-- An invocation that goes on with the same active slot. -/
private theorem Placed.resume {inv inv' : Invocation σ} (placed : w.Placed inv)
    (state : inv'.localState = inv.localState)
    (callable : inv'.callableIter = inv.callableIter) (active : inv'.activeSlot = inv.activeSlot)
    (working : Working inv) (working' : Working inv')
    (iter : inv'.iter.node ≠ none → ∃ b, w.bodyAt inv.localState inv'.iter = some b)
    (committed : inv'.phase = .ready ∨ inv'.phase = .running → inv'.iter.node ≠ none →
      inv.callableIter = inv'.iter)
    (running : inv'.phase = .running → inv'.iter.node ≠ none) : w.Placed inv' where
  iter _ := by
    rw [state]
    exact iter
  callable _ := by
    rw [state, callable, active]
    exact placed.callable working
  idle _ := by
    rw [callable, active]
    exact placed.idle working
  committed := by
    rw [callable]
    exact committed
  running := running
  held := by
    rw [state, active]
    exact placed.held
  quit now := (now.elim working'.not_over.1 working'.not_over.2).elim
  progress := by
    rw [state]
    exact ⟨fun done => absurd done working'.not_over.2,
      fun gone => absurd (placed.progress.mpr gone) working.not_over.2⟩

theorem Placed.move {i : InvocationId} {inv inv' : Invocation σ} (placed : w.Placed inv)
    (move : Move w i inv a inv') : w.Placed inv' := by
  cases move with
  | clear nonempty outside phase => exact { placed with }
  | reachEnd phase atEnd idle =>
      exact placed.resume rfl rfl rfl (.inl phase) (.inr (.inl rfl)) (placed.iter (.inl phase))
        (fun _ inside => absurd atEnd inside) (by simp)
  | call b slot phase inside first here held promoted =>
      exact placed.resume rfl rfl rfl (.inr (.inl phase)) (.inr (.inr rfl))
        (placed.iter (.inr (.inl phase))) (fun _ => placed.committed (.inl phase))
        (fun _ => inside)
  | returns result phase =>
      exact placed.resume rfl rfl rfl (.inr (.inr phase)) (.inr (.inl rfl))
        (placed.iter (.inr (.inr phase))) (fun _ => placed.committed (.inr phase)) (by simp)
  | throws phase =>
      exact placed.resume rfl rfl rfl (.inr (.inr phase)) (.inr (.inl rfl))
        (placed.iter (.inr (.inr phase))) (fun _ => placed.committed (.inr phase)) (by simp)
  | increment phase inside here =>
      obtain ⟨b, found⟩ := Option.ne_none_iff_exists'.mp here
      by_cases same : w.iteratorAfter inv.localState inv.iter = inv.callableIter
      · rw [if_pos same]
        exact placed.resume rfl rfl rfl (.inr (.inl phase)) (.inr (.inl rfl))
          (iteratorAfter_placed found) (fun _ _ => same.symm) (by simp)
      · rw [if_neg same]
        exact placed.resume rfl rfl rfl (.inr (.inl phase)) (.inl rfl)
          (iteratorAfter_placed found) (fun now => by rcases now with now | now <;> cases now)
          (by simp)
  | finish phase =>
      exact placed.leave rfl rfl (by simp [Working]) (by simp) (by simp) (by simp [phase])
  | leave phase few =>
      exact placed.leave rfl rfl (by simp [Working]) (by simp) (by simp) (by simp [phase])
  | skipCache phase idle =>
      exact placed.leave rfl rfl (by simp [Working]) (fun _ => idle) (by simp) (by simp [phase])
  | releaseState phase cleared =>
      exact .of_quit (.inr rfl) (placed.quit (.inl phase)) (by simp)

theorem SectionPlaced.grab {i : InvocationId} {inv : Invocation σ} {b : BodyId}
    {todo : List VoidWeakPtr} {locked : Option (Option ObjectId)} (placed : w.SectionPlaced)
    (critical : w.critical = some (.grabTrackedObjects (.iterator i) b todo locked))
    (found : w.invocations[i]? = some inv) :
    inv.phase = .searching ∧ inv.iter.node ≠ none ∧
      w.bodyAt inv.localState inv.iter = some b := by
  simp only [SectionPlaced, critical, found] at placed
  obtain ⟨_, same, facts⟩ := placed
  cases same
  exact facts

theorem SectionPlaced.forced {i : InvocationId} {inv : Invocation σ} {it : Iterator}
    {k count : Nat} {grabTracked : Bool} (placed : w.SectionPlaced)
    (critical : w.critical =
      some (.cleanupConnections it k count grabTracked (.forceCleanup i)))
    (found : w.invocations[i]? = some inv) :
    inv.phase = .janitor ∧ inv.connectedSlotCount < inv.disconnectedSlotCount := by
  simp only [SectionPlaced, critical, found] at placed
  obtain ⟨_, same, facts⟩ := placed
  cases same
  exact facts

theorem Placed.step {i : InvocationId} {inv inv' : Invocation σ} (placed : w.Placed inv)
    (criticalPlaced : w.SectionPlaced) (found : w.invocations[i]? = some inv)
    (how : Progress w i inv a inv') : w.Placed inv' := by
  cases how with
  | move move => exact placed.move move
  | insert b p rest locked critical => exact { placed with }
  | commit b locked critical connected unblocked =>
      obtain ⟨phase, inside, here⟩ := criticalPlaced.grab critical found
      exact {
        iter := fun _ _ => ⟨b, here⟩
        callable := fun _ _ => ⟨b, here, rfl⟩
        idle := fun _ atEnd => absurd atEnd inside
        committed := fun _ _ => rfl
        running := (by simp)
        held := fun other active => by
          cases active
          exact ⟨inv.iter, here⟩
        quit := fun now => by rcases now with now | now <;> cases now
        progress := ⟨(by simp), fun gone => by
          have done := placed.progress.mpr gone
          rw [phase] at done
          cases done⟩ }
  | skip b todo locked u critical ended blocked =>
      obtain ⟨phase, inside, here⟩ := criticalPlaced.grab critical found
      refine placed.resume (by simp) (by simp) (by simp) (.inl phase) (.inl (by simp [phase]))
        (iteratorAfter_placed here) (fun now => ?_) (fun now => ?_)
      · simp [phase] at now
      · simp [phase] at now
  | reachEnd free phase atEnd callable =>
      exact {
        iter := fun _ inside => absurd atEnd inside
        callable := fun _ inside => absurd atEnd inside
        idle := fun _ _ => rfl
        committed := fun _ inside => absurd atEnd inside
        running := (by simp)
        held := (by simp)
        quit := fun _ => rfl
        progress := ⟨(by simp), fun gone => by
          have done := placed.progress.mpr gone
          rw [phase] at done
          cases done⟩ }
  | destroyCache free phase active =>
      refine .of_quit (.inl rfl) rfl ⟨(by simp), fun gone => ?_⟩
      have done := placed.progress.mpr gone
      rw [phase] at done
      cases done
  | forced it k count grabTracked critical =>
      have phase := (criticalPlaced.forced critical found).1
      exact placed.leave rfl rfl (by simp [Working]) (by simp) (by simp) (by simp [phase])
  | throwExpired phase =>
      exact placed.resume rfl rfl rfl (.inr (.inr phase)) (.inr (.inl rfl))
        (placed.iter (.inr (.inr phase))) (fun _ => placed.committed (.inr phase)) (by simp)

theorem Progress.localState {i : InvocationId} {inv inv' : Invocation σ}
    (how : Progress w i inv a inv') :
    inv'.localState = inv.localState ∨ inv'.localState = none := by
  cases how with
  | move move => cases move <;> first | exact .inl rfl | exact .inr rfl
  | skip b todo locked u critical ended blocked => exact .inl (counted_state inv _)
  | _ => exact .inl rfl

/-- The snapshots of the invocations in progress stay as they are. -/
def SnapshotsKept (w w' : World σ) : Prop :=
  ∀ s, some s ∈ w.readers .invocation → w'.listOf s = w.listOf s

theorem SnapshotsKept.bodyAt (kept : SnapshotsKept w w') {inv : Invocation σ}
    (member : inv ∈ w.invocations) (it : Iterator) :
    w'.bodyAt inv.localState it = w.bodyAt inv.localState it := by
  refine bodyAt_congr (fun s same => kept s ?_) it
  exact List.mem_map.mpr ⟨inv, member, same⟩

theorem Positioned.placed_step (positioned : w.Positioned) (kept : SnapshotsKept w w')
    (change : InvocationChange w a w') : ∀ inv ∈ w'.invocations, w'.Placed inv := by
  intro inv' member
  cases change with
  | same invocations =>
      rw [invocations] at member
      exact (positioned.placed inv' member).congr (kept.bodyAt member)
  | progress i inv new found how invocations =>
      rw [invocations] at member
      have old := List.mem_of_getElem? found
      rcases List.mem_or_eq_of_mem_set member with other | rfl
      · exact (positioned.placed inv' other).congr (kept.bodyAt other)
      · refine ((positioned.placed inv old).step positioned.criticalPlaced found how).congr ?_
        intro it
        rcases how.localState with same | gone
        · rw [same]
          exact kept.bodyAt old it
        · rw [gone]
          rfl
  | join impl present invocations lists =>
      rw [invocations] at member
      rcases List.mem_append.mp member with old | new
      · exact (positioned.placed inv' old).congr (kept.bodyAt old)
      · cases List.mem_singleton.mp new
        exact (newInvocation_placed impl).congr (bodyAt_congr fun s _ => lists s)

/-- The section of the invocation is in progress. -/
def Engaged (w : World σ) (i : InvocationId) : Prop :=
  match w.critical with
  | some (.grabTrackedObjects (.iterator j) _ _ _) => j = i
  | some (.cleanupConnections _ _ _ _ (.forceCleanup j)) => j = i
  | _ => False

/-- An invocation does not move while its own section is in progress. -/
theorem Move.disengaged {i : InvocationId} {inv inv' : Invocation σ}
    (move : Move w i inv a inv') (placed : w.SectionPlaced)
    (found : w.invocations[i]? = some inv) : ¬ w.Engaged i := by
  intro engaged
  unfold Engaged at engaged
  split at engaged
  · rename_i j b todo locked critical
    subst engaged
    obtain ⟨searching, inside, here⟩ := placed.grab critical found
    have taken : w.grabbing j = true := by simp [grabbing, critical]
    cases move with
    | clear nonempty outside either => rw [outside] at taken; cases taken
    | reachEnd phase atEnd idle => exact inside atEnd
    | call b slot phase _ first _ held promoted => rw [searching] at phase; cases phase
    | returns result phase => rw [searching] at phase; cases phase
    | throws phase => rw [searching] at phase; cases phase
    | increment phase _ _ => rw [searching] at phase; cases phase
    | finish phase => rw [searching] at phase; cases phase
    | leave phase few => rw [searching] at phase; cases phase
    | skipCache phase idle => rw [searching] at phase; cases phase
    | releaseState phase cleared => rw [searching] at phase; cases phase
  · rename_i it k count grabTracked j critical
    subst engaged
    obtain ⟨janitor, many⟩ := placed.forced critical found
    cases move with
    | clear nonempty outside either =>
        rcases either with ⟨phase, _⟩ | phase <;> rw [janitor] at phase <;> cases phase
    | reachEnd phase atEnd idle => rw [janitor] at phase; cases phase
    | call b slot phase _ first _ held promoted => rw [janitor] at phase; cases phase
    | returns result phase => rw [janitor] at phase; cases phase
    | throws phase => rw [janitor] at phase; cases phase
    | increment phase _ _ => rw [janitor] at phase; cases phase
    | finish phase => rw [janitor] at phase; cases phase
    | leave phase few =>
        rcases few with few | ⟨free, _⟩
        · exact few many
        · rw [critical] at free
          cases free
    | skipCache phase idle => rw [janitor] at phase; cases phase
    | releaseState phase cleared => rw [janitor] at phase; cases phase
  · exact engaged

/-- The section goes on, and its invocation has not been touched. -/
theorem SectionPlaced.congr (placed : w.SectionPlaced) (critical : w'.critical = w.critical)
    (invocations : ∀ i inv, w.Engaged i → w.invocations[i]? = some inv →
      w'.invocations[i]? = some inv)
    (kept : w.sweeping = false → SnapshotsKept w w') : w'.SectionPlaced := by
  unfold SectionPlaced at placed ⊢
  rw [critical]
  cases taken : w.critical with
  | none => trivial
  | some running =>
      simp only [taken] at placed
      cases running with
      | contains t b weakPimpl pimpl locked => trivial
      | grabTrackedObjects client b todo locked =>
          cases client with
          | connected => trivial
          | traversal t => trivial
          | iterator i =>
              obtain ⟨inv, found, phase, inside, here⟩ := placed
              refine ⟨inv, invocations i inv (by simp [Engaged, taken]) found, phase, inside, ?_⟩
              have still : w.sweeping = false := by simp [sweeping, taken]
              rw [(kept still).bodyAt (List.mem_of_getElem? found)]
              exact here
      | cleanupConnections it k count grabTracked after =>
          cases after with
          | connect arguments => trivial
          | invoke => trivial
          | forceCleanup i =>
              obtain ⟨inv, found, facts⟩ := placed
              exact ⟨inv, invocations i inv (by simp [Engaged, taken]) found, facts⟩

theorem SectionPlaced.of_cleanupReady {it : Iterator} {count : Nat} {grabTracked : Bool}
    {after : AfterCleanup σ} {k : Nat} (ready : w.CleanupReady after)
    (critical : w'.critical = some (.cleanupConnections it k count grabTracked after))
    (invocations : w'.invocations = w.invocations) : w'.SectionPlaced := by
  unfold SectionPlaced
  rw [critical, invocations]
  cases after with
  | connect arguments => trivial
  | invoke => trivial
  | forceCleanup i => exact ready

theorem SectionPlaced.step (placed : w.SectionPlaced)
    (kept : w.sweeping = false → SnapshotsKept w w') (effect : Effect w a w') :
    w'.SectionPlaced := by
  cases effect with
  | sweepStart impl it count grabTracked after free present unique position ready =>
      exact .of_cleanupReady ready rfl rfl
  | copyAndSweep impl grabTracked after free present shared ready =>
      exact .of_cleanupReady ready rfl rfl
  | assignCombiner combiner impl free present unique =>
      exact placed.congr rfl (fun _ _ _ => id) kept
  | replaceCombiner combiner impl free present shared =>
      exact placed.congr rfl (fun _ _ _ => id) kept
  | start impl free present shared =>
      refine placed.congr rfl (fun i inv engaged _ => ?_) kept
      simp [Engaged, free] at engaged
  | traverse impl kind free present =>
      exact placed.congr rfl (fun _ _ _ => id) kept
  | destroy impl present => exact placed.congr rfl (fun _ _ _ => id) kept
  | grabStart client b free ready =>
      cases client with
      | connected => trivial
      | traversal t => trivial
      | iterator i =>
          obtain ⟨inv, found, phase, inside, cleared, here⟩ := ready
          exact ⟨inv, found, phase, inside, here⟩
  | promote client b p rest critical alive =>
      cases client with
      | connected => trivial
      | traversal t => trivial
      | iterator i =>
          simp only [SectionPlaced, critical] at placed
          exact placed
  | keep client b p rest locked critical =>
      cases client with
      | connected => trivial
      | traversal t => trivial
      | iterator i =>
          simp only [SectionPlaced, critical] at placed
          obtain ⟨inv, found, facts⟩ := placed
          have bound : i < w.invocations.length := (List.getElem?_eq_some_iff.mp found).1
          simp only [insertLocked, found]
          exact ⟨_, List.getElem?_set_self bound, facts⟩
  | sweepErase it i count grabTracked after impl b list next critical present inside more here
      dead erased =>
      obtain ⟨store, same⟩ := checkExpired_store w grabTracked b
      rw [same]
      cases after with
      | connect arguments => trivial
      | invoke => trivial
      | forceCleanup j =>
          simp only [SectionPlaced, critical] at placed
          exact placed
  | sweepSkip it i count grabTracked after impl b critical present inside more here connected =>
      obtain ⟨store, same⟩ := checkExpired_store w grabTracked b
      rw [same]
      cases after with
      | connect arguments => trivial
      | invoke => trivial
      | forceCleanup j =>
          simp only [SectionPlaced, critical] at placed
          exact placed
  | sweepEnd it i count grabTracked after impl critical present done =>
      unfold finishCleanup
      cases after with
      | connect arguments => trivial
      | invoke => trivial
      | forceCleanup j =>
          dsimp only
          split <;> trivial
  | move i inv inv' found move =>
      refine placed.congr rfl (fun j other engaged known => ?_) kept
      have apart : i ≠ j := by
        intro same
        subst same
        exact move.disengaged placed found engaged
      exact (List.getElem?_set_ne apart).trans known
  | walk t tr tr' found walk => exact placed.congr rfl (fun _ _ _ => id) kept
  | outside w' outside =>
      exact placed.congr outside.critical (fun _ _ _ known => by rwa [outside.invocations]) kept
  | fault u f cause u_eq =>
      rcases u_eq with rfl | ⟨grabTracked, b, rfl⟩
      · exact placed.congr rfl (fun _ _ _ => id) kept
      · obtain ⟨store, same⟩ := checkExpired_store w grabTracked b
        rw [same] at kept ⊢
        exact placed.congr rfl (fun _ _ _ => id) kept
  | _ => trivial

theorem construct_positioned (combiner : σ.Combiner)
    (defaultCompare groupCompare : σ.Group → σ.Group → Bool) (owners : ObjectId → Nat) :
    (World.construct combiner defaultCompare groupCompare owners).Positioned where
  placed inv member := by cases member
  criticalPlaced := trivial

theorem Positioned.step (positioned : w.Positioned) (kept : SnapshotsKept w w')
    (effect : Effect w a w') : w'.Positioned where
  placed := positioned.placed_step kept effect.invocations
  criticalPlaced := positioned.criticalPlaced.step (fun _ => kept) effect

end World

end Signals2
