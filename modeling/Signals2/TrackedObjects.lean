/-
Tracked objects of the slots that are called.  An invocation that has committed to
a slot owns every object the slot tracks, so none of them expires before the
iterator moves on.  An object that expired earlier makes the grab end in a
disconnection, and the slot is never called again.
-/

import Signals2.SlotRefcountProtocol

namespace Signals2

open LinkedLists

variable {σ : SignalTemplate}

namespace World

variable {w w' : World σ} {a : Action σ}

/-! ### Ownership -/

theorem owned_iff {o : ObjectId} : w.owned o = true ↔
    0 < w.owners o ∨ (∃ inv ∈ w.invocations, some o ∈ inv.trackedPtrs) ∨
      w.lockedObject = some o := by
  simp [owned, or_assoc]

theorem owned_of_tracked {inv : Invocation σ} {o : ObjectId} (member : inv ∈ w.invocations)
    (held : some o ∈ inv.trackedPtrs) : w.owned o = true :=
  owned_iff.mpr (.inr (.inl ⟨inv, member, held⟩))

theorem expired_iff {p : VoidWeakPtr} : w.expired p = true ↔ w.owned p.object = false := by
  simp [expired]

theorem not_expired_iff {p : VoidWeakPtr} : w.expired p = false ↔ w.owned p.object = true := by
  simp [expired]

/-- Promoting a weak pointer that has not expired yields its object. -/
theorem lockWeakPtr_alive {p : VoidWeakPtr} (promotable : p.promotable = true)
    (alive : w.expired p = false) : w.lockWeakPtr p = some p.object := by
  have owned := not_expired_iff.mp alive
  simp [lockWeakPtr, promotable, owned]

theorem owned_of_lockWeakPtr {p : VoidWeakPtr} {o : ObjectId}
    (locked : w.lockWeakPtr p = some o) : w.owned o = true := by
  unfold lockWeakPtr at locked
  split at locked
  · rename_i able
    cases locked
    exact (Bool.and_eq_true_iff.mp able).2
  · cases locked

/-- What a step makes of the critical section, as far as tracked objects go. -/
inductive SectionChange (w : World σ) : Action σ → World σ → Prop
  | same {a : Action σ} {w' : World σ} (critical : w'.critical = w.critical) :
      SectionChange w a w'
  | free {a : Action σ} {w' : World σ} (critical : w'.critical = none) : SectionChange w a w'
  | sweep {a : Action σ} {w' : World σ} (it : Iterator) (i count : Nat) (grabTracked : Bool)
      (after : AfterCleanup σ)
      (critical : w'.critical = some (.cleanupConnections it i count grabTracked after)) :
      SectionChange w a w'
  | grab {a : Action σ} (client : GrabClient) (b : BodyId) (ready : w.GrabReady client b) :
      SectionChange w a (w.enterGrab client b)
  | promote (client : GrabClient) (b : BodyId) (p : VoidWeakPtr) (rest : List VoidWeakPtr)
      (before : w.critical = some (.grabTrackedObjects client b (p :: rest) none))
      (alive : w.expired p = false) :
      SectionChange w .section
        (w.enter (.grabTrackedObjects client b (p :: rest) (some (w.lockWeakPtr p))))
  | keep (client : GrabClient) (b : BodyId) (p : VoidWeakPtr) (rest : List VoidWeakPtr)
      (locked : Option ObjectId)
      (before : w.critical =
        some (.grabTrackedObjects client b (p :: rest) (some locked))) :
      SectionChange w .section
        ((w.insertLocked client locked).enter (.grabTrackedObjects client b rest none))
  | contains {a : Action σ} (t : TraversalId) (b : BodyId) (weakPimpl pimpl : ObjectId) :
      SectionChange w a
        (w.enter (.contains t b weakPimpl pimpl (w.lockWeakPtr (.boost weakPimpl))))

theorem Effect.sectionChange (effect : Effect w a w') : SectionChange w a w' := by
  cases effect with
  | grabStart client b free ready => exact .grab client b ready
  | promote client b p rest critical alive => exact .promote client b p rest critical alive
  | keep client b p rest locked critical => exact .keep client b p rest locked critical
  | containsStart t tr b weakPimpl pimpl free found inside here kind connected slot held wrapped =>
      exact .contains t b weakPimpl pimpl
  | sweepStart impl it count grabTracked after free present unique position ready =>
      exact .sweep _ _ _ _ _ rfl
  | copyAndSweep impl grabTracked after free present shared ready => exact .sweep _ _ _ _ _ rfl
  | sweepErase it i count grabTracked after impl b list next critical present inside more here
      dead erased => exact .sweep _ _ _ _ _ rfl
  | sweepSkip it i count grabTracked after impl b critical present inside more here connected =>
      exact .sweep _ _ _ _ _ rfl
  | sweepEnd it i count grabTracked after impl critical present done =>
      unfold finishCleanup
      cases after with
      | connect arguments => exact .free rfl
      | invoke => exact .free rfl
      | forceCleanup j =>
          dsimp only
          split <;> exact .free rfl
  | outside w' outside => exact .same outside.critical
  | fault u f cause u_eq =>
      rcases u_eq with rfl | ⟨grabTracked, b, rfl⟩
      · exact .same rfl
      · obtain ⟨store, same⟩ := checkExpired_store w grabTracked b
        rw [same]
        exact .same rfl
  | assignCombiner combiner impl free present unique => exact .same rfl
  | replaceCombiner combiner impl free present shared => exact .same rfl
  | start impl free present shared => exact .same rfl
  | traverse impl kind free present => exact .same rfl
  | destroy impl present => exact .same rfl
  | move i inv inv' found move => exact .same rfl
  | walk t tr tr' found walk => exact .same rfl
  | _ => exact .free rfl

/-- A locked object that the library comes to hold had an owner already. -/
theorem SectionChange.lockedObject (change : SectionChange w a w') {o : ObjectId}
    (locked : w'.lockedObject = some o) : w.owned o = true := by
  cases change with
  | same critical =>
      simp only [World.lockedObject, critical] at locked
      exact owned_iff.mpr (.inr (.inr locked))
  | free critical =>
      simp only [World.lockedObject, critical] at locked
      cases locked
  | sweep it i count grabTracked after critical =>
      simp only [World.lockedObject, critical] at locked
      cases locked
  | grab client b ready => cases locked
  | promote client b p rest before alive => exact owned_of_lockWeakPtr locked
  | keep client b p rest object before => cases locked
  | contains t b weakPimpl pimpl => exact owned_of_lockWeakPtr locked

theorem Progress.trackedPtrs {i : InvocationId} {inv inv' : Invocation σ}
    (how : Progress w i inv a inv') {o : ObjectId} (held : some o ∈ inv'.trackedPtrs) :
    some o ∈ inv.trackedPtrs ∨ w.lockedObject = some o := by
  cases how with
  | move move =>
      cases move with
      | clear nonempty outside phase => exact .inl (List.dropLast_subset _ held)
      | _ => exact .inl held
  | insert b p rest locked critical =>
      rcases List.mem_append.mp held with old | new
      · exact .inl old
      · right
        simp only [World.lockedObject, critical]
        exact (List.mem_singleton.mp new).symm
  | skip b todo locked u critical ended blocked =>
      left
      revert held
      cases (u.bodies b).connected <;> exact id
  | _ => exact .inl held

theorem Effect.owners (effect : Effect w a w') : w'.owners = w.owners ∨ Outside w w' := by
  cases effect with
  | outside w' outside => exact .inr outside
  | keep client b p rest locked critical =>
      left
      unfold insertLocked
      split
      · split <;> rfl
      · rfl
  | answer b todo locked u critical ended =>
      obtain ⟨store, rfl⟩ := ended.store
      exact .inl rfl
  | count t b todo locked u tr critical ended found =>
      obtain ⟨store, rfl⟩ := ended.store
      exact .inl rfl
  | skip i b todo locked u inv critical ended found blocked =>
      obtain ⟨store, rfl⟩ := ended.store
      exact .inl rfl
  | lost client b todo locked u critical ended missing =>
      obtain ⟨store, rfl⟩ := ended.store
      exact .inl rfl
  | contains t b weakPimpl pimpl locked u tr critical tested found =>
      obtain ⟨store, rfl⟩ := tested_store tested
      exact .inl rfl
  | containsLost t b weakPimpl pimpl locked u critical tested missing =>
      obtain ⟨store, rfl⟩ := tested_store tested
      exact .inl rfl
  | sweepErase it i count grabTracked after impl b list next critical present inside more here
      dead erased =>
      obtain ⟨store, same⟩ := checkExpired_store w grabTracked b
      rw [same]
      exact .inl rfl
  | sweepSkip it i count grabTracked after impl b critical present inside more here connected =>
      obtain ⟨store, same⟩ := checkExpired_store w grabTracked b
      rw [same]
      exact .inl rfl
  | sweepEnd it i count grabTracked after impl critical present done =>
      left
      unfold finishCleanup
      cases after with
      | connect arguments => rfl
      | invoke => rfl
      | forceCleanup j =>
          dsimp only
          split <;> rfl
  | fault u f cause u_eq =>
      rcases u_eq with rfl | ⟨grabTracked, b, rfl⟩
      · exact .inl rfl
      · obtain ⟨store, same⟩ := checkExpired_store w grabTracked b
        rw [same]
        exact .inl rfl
  | _ => exact .inl rfl

/-- Who has no owner left never has one again. -/
theorem Effect.stays (effect : Effect w a w') {o : ObjectId} (gone : w.owned o = false) :
    w'.owned o = false := by
  rcases effect.owners with owners | outside
  · by_contra regained
    have owned : w.owned o = true := by
      rcases owned_iff.mp (by simpa using regained) with positive | ⟨inv, member, held⟩ | locked
      · rw [owners] at positive
        exact owned_iff.mpr (.inl positive)
      · have invocations := effect.invocations
        cases invocations with
        | same same =>
            rw [same] at member
            exact owned_of_tracked member held
        | progress i old new found how same =>
            rw [same] at member
            rcases List.mem_or_eq_of_mem_set member with other | rfl
            · exact owned_of_tracked other held
            · rcases how.trackedPtrs held with before | locked
              · exact owned_of_tracked (List.mem_of_getElem? found) before
              · exact owned_iff.mpr (.inr (.inr locked))
        | join impl present same lists =>
            rw [same] at member
            rcases List.mem_append.mp member with old | new
            · exact owned_of_tracked old held
            · cases List.mem_singleton.mp new
              cases held
      · exact effect.sectionChange.lockedObject locked
    rw [owned] at gone
    cases gone
  · exact outside.stays o gone

/-! ### The objects of a committed slot -/

/-- An invocation that has committed to a slot owns what the slot tracks. -/
def OwnsTracked (w : World σ) (inv : Invocation σ) : Prop :=
  inv.phase = .ready ∨ inv.phase = .running → inv.iter.node ≠ none →
    ∀ b slot, w.bodyAt inv.localState inv.iter = some b → (w.bodies b).slot = some slot →
      ∀ p ∈ slot.trackedObjects, p.promotable = true → some p.object ∈ inv.trackedPtrs

/-- The grab loop of an invocation has promoted and kept the objects before `todo`. -/
def GrabKept (w : World σ) : Prop :=
  ∀ i b todo locked inv slot,
    w.critical = some (.grabTrackedObjects (.iterator i) b todo locked) →
    w.invocations[i]? = some inv → (w.bodies b).slot = some slot →
      ∃ done, slot.trackedObjects = done ++ todo ∧
        (∀ p ∈ done, p.promotable = true → some p.object ∈ inv.trackedPtrs) ∧
        ∀ p rest object, todo = p :: rest → locked = some object → p.promotable = true →
          object = some p.object

structure Tracking (w : World σ) : Prop where
  committed : ∀ inv ∈ w.invocations, w.OwnsTracked inv
  grabbed : w.GrabKept

theorem construct_tracking (combiner : σ.Combiner)
    (defaultCompare groupCompare : σ.Group → σ.Group → Bool) (owners : ObjectId → Nat) :
    (World.construct combiner defaultCompare groupCompare owners).Tracking where
  committed inv member := by cases member
  grabbed i b todo locked inv slot critical := by cases critical

theorem bodyAt_listed {localState : Option StateId} {it : Iterator} {b : BodyId}
    (here : w.bodyAt localState it = some b) : Listed w.heap b := by
  cases localState with
  | none => cases here
  | some s => exact ⟨_, value?_mem here⟩

theorem Tracking.progress {i : InvocationId} {inv inv' : Invocation σ} (tracking : w.Tracking)
    (positioned : w.Positioned) (found : w.invocations[i]? = some inv)
    (how : Progress w i inv a inv') : w.OwnsTracked inv' := by
  have member := List.mem_of_getElem? found
  have old := tracking.committed inv member
  intro phase inside
  cases how with
  | move move =>
      cases move with
      | clear nonempty outside either =>
          rcases either with ⟨searching, _⟩ | releasing
          · rw [searching] at phase
            rcases phase with phase | phase <;> cases phase
          · rw [releasing] at phase
            rcases phase with phase | phase <;> cases phase
      | reachEnd searching atEnd idle => exact absurd atEnd inside
      | call b slot ready _ first here held promoted => exact old (.inl ready) inside
      | returns result running => exact old (.inr running) inside
      | throws running => exact old (.inr running) inside
      | increment ready before here =>
          by_cases same : w.iteratorAfter inv.localState inv.iter = inv.callableIter
          · -- the iterator is back where it was committed
            have back : w.iteratorAfter inv.localState inv.iter = inv.iter :=
              same.trans ((positioned.placed inv member).committed (.inl ready) before)
            simp only [back]
            exact old (.inl ready) before
          · simp only [if_neg same] at phase
            rcases phase with phase | phase <;> cases phase
      | finish ready => rcases phase with phase | phase <;> cases phase
      | leave janitor few => rcases phase with phase | phase <;> cases phase
      | skipCache destructing idle => rcases phase with phase | phase <;> cases phase
      | releaseState releasing cleared => rcases phase with phase | phase <;> cases phase
  | insert b p rest locked critical =>
      obtain ⟨searching, _⟩ := positioned.criticalPlaced.grab critical found
      rw [searching] at phase
      rcases phase with phase | phase <;> cases phase
  | commit b locked critical connected unblocked =>
      obtain ⟨_, _, here⟩ := positioned.criticalPlaced.grab critical found
      intro other slot here' held p member promotable
      cases here.symm.trans here'
      obtain ⟨done, all, kept, _⟩ := tracking.grabbed i b [] locked inv slot critical found held
      rw [all, List.append_nil] at member
      exact kept p member promotable
  | skip b todo locked u critical ended blocked =>
      obtain ⟨searching, _⟩ := positioned.criticalPlaced.grab critical found
      simp only [counted_phase, searching] at phase
      rcases phase with phase | phase <;> cases phase
  | reachEnd free searching atEnd callable => exact absurd atEnd inside
  | destroyCache free destructing active => rcases phase with phase | phase <;> cases phase
  | forced it k count grabTracked critical => rcases phase with phase | phase <;> cases phase
  | throwExpired running => exact old (.inr running) inside

/-- What an invocation owns in one state it owns in the next one. -/
private theorem OwnsTracked.later {inv : Invocation σ} (owns : w.OwnsTracked inv)
    (same : ∀ it, w'.bodyAt inv.localState it = w.bodyAt inv.localState it)
    (listed : ∀ b, Listed w.heap b → b < w.nextBody) (effect : Effect w a w') :
    w'.OwnsTracked inv := by
  intro phase inside b slot here held
  rw [same] at here
  exact owns phase inside b slot here
    (effect.slot_kept (listed b (bodyAt_listed here)) held)

theorem newInvocation_ownsTracked (impl : SignalImpl) : w.OwnsTracked (w.newInvocation impl) := by
  intro phase inside
  by_cases empty : (w.heap.connectionBodies impl).begin = (w.heap.connectionBodies impl).past
  · have atEnd : (w.newInvocation impl).iter.node = none := congrArg Iterator.node empty
    exact absurd atEnd inside
  · simp only [newInvocation, if_neg empty] at phase
    rcases phase with phase | phase <;> cases phase

theorem Tracking.committed_step (tracking : w.Tracking) (isolated : w.Isolated)
    (effect : Effect w a w') : ∀ inv ∈ w'.invocations, w'.OwnsTracked inv := by
  intro inv' member
  have kept := isolated.kept effect
  cases effect.invocations with
  | same invocations =>
      rw [invocations] at member
      exact (tracking.committed inv' member).later (kept.bodyAt member) isolated.listed effect
  | progress i inv new found how invocations =>
      rw [invocations] at member
      have old := List.mem_of_getElem? found
      rcases List.mem_or_eq_of_mem_set member with other | rfl
      · exact (tracking.committed inv' other).later (kept.bodyAt other) isolated.listed effect
      · refine (tracking.progress isolated.positioned found how).later ?_ isolated.listed effect
        intro it
        rcases how.localState with same | gone
        · rw [same]
          exact kept.bodyAt old it
        · rw [gone]
          rfl
  | join impl present invocations lists =>
      rw [invocations] at member
      rcases List.mem_append.mp member with old | new
      · exact (tracking.committed inv' old).later (kept.bodyAt old) isolated.listed effect
      · cases List.mem_singleton.mp new
        exact (newInvocation_ownsTracked impl).later (bodyAt_congr fun s _ => lists s)
          isolated.listed effect

/-- The grab goes on, and its invocation has not been touched. -/
private theorem GrabKept.congr (kept : w.GrabKept) (critical : w'.critical = w.critical)
    (invocations : ∀ i, w.Engaged i → w'.invocations[i]? = w.invocations[i]?)
    (slots : ∀ i b todo locked slot,
      w.critical = some (.grabTrackedObjects (.iterator i) b todo locked) →
      (w'.bodies b).slot = some slot → (w.bodies b).slot = some slot) : w'.GrabKept := by
  intro i b todo locked inv slot taken found held
  rw [critical] at taken
  rw [invocations i (by simp [Engaged, taken])] at found
  exact kept i b todo locked inv slot taken found (slots i b todo locked slot taken held)

theorem GrabKept.grabStart {client : GrabClient} {b : BodyId} :
    (w.enterGrab client b).GrabKept := by
  intro i other todo locked inv slot taken found held
  cases taken
  have all : (w.bodies b).trackedObjects = slot.trackedObjects := by
    have known : (w.bodies b).slot = some slot := held
    simp only [ConnectionBody.trackedObjects, known]
  refine ⟨[], ?_, ?_, ?_⟩
  · rw [all]
    rfl
  · intro p member
    cases member
  · intro p rest object _ same
    cases same

theorem GrabKept.promote (kept : w.GrabKept) {client : GrabClient} {b : BodyId}
    {p : VoidWeakPtr} {rest : List VoidWeakPtr}
    (critical : w.critical = some (.grabTrackedObjects client b (p :: rest) none))
    (alive : w.expired p = false) :
    (w.enter (.grabTrackedObjects client b (p :: rest) (some (w.lockWeakPtr p)))).GrabKept := by
  intro i other todo locked inv slot taken found held
  cases taken
  obtain ⟨done, all, owned, _⟩ := kept i b (p :: rest) none inv slot critical found held
  refine ⟨done, all, owned, ?_⟩
  intro q tail object split same promotable
  cases split
  cases same
  exact lockWeakPtr_alive promotable alive

theorem GrabKept.keep (kept : w.GrabKept) {client : GrabClient} {b : BodyId}
    {p : VoidWeakPtr} {rest : List VoidWeakPtr} {object : Option ObjectId}
    (critical : w.critical = some (.grabTrackedObjects client b (p :: rest) (some object))) :
    ((w.insertLocked client object).enter (.grabTrackedObjects client b rest none)).GrabKept := by
  intro i other todo locked inv' slot taken found' held
  cases taken
  cases found : w.invocations[i]? with
  | none =>
      simp only [insertLocked, found, enter] at found'
      cases found'
  | some inv =>
      have bound : i < w.invocations.length := (List.getElem?_eq_some_iff.mp found).1
      simp only [insertLocked, found, enter, setInvocation, List.getElem?_set_self bound]
        at found'
      cases found'
      have heldBefore : (w.bodies b).slot = some slot := by
        simp only [insertLocked, found, enter, setInvocation] at held
        exact held
      obtain ⟨done, all, owned, locked⟩ :=
        kept i b (p :: rest) (some object) inv slot critical found heldBefore
      refine ⟨done ++ [p], ?_, ?_, ?_⟩
      · rw [all, List.append_assoc]
        rfl
      · intro q member promotable
        rcases List.mem_append.mp member with before | new
        · exact List.mem_append_left _ (owned q before promotable)
        · cases List.mem_singleton.mp new
          rw [locked p rest object rfl rfl promotable]
          exact List.mem_append_right _ List.mem_cons_self
      · intro q tail other _ same
        cases same

theorem GrabKept.step (kept : w.GrabKept) (isolated : w.Isolated) (effect : Effect w a w') :
    w'.GrabKept := by
  have slots : ∀ i b todo locked slot,
      w.critical = some (.grabTrackedObjects (.iterator i) b todo locked) →
      (w'.bodies b).slot = some slot → (w.bodies b).slot = some slot := by
    intro i b todo locked slot taken held
    have placed := isolated.positioned.criticalPlaced
    simp only [SectionPlaced, taken] at placed
    obtain ⟨inv, found, _, _, here⟩ := placed
    exact effect.slot_kept (isolated.listed b (bodyAt_listed here)) held
  have nothing : (∀ i b todo locked,
      w'.critical ≠ some (.grabTrackedObjects (.iterator i) b todo locked)) → w'.GrabKept :=
    fun none i b todo locked _ _ taken => absurd taken (none i b todo locked)
  cases effect with
  | grabStart client b free ready => exact .grabStart
  | promote client b p rest critical alive => exact kept.promote critical alive
  | keep client b p rest locked critical => exact kept.keep critical
  | start impl free present shared =>
      exact kept.congr rfl (fun i engaged => by simp [Engaged, free] at engaged) slots
  | move i inv inv' found move =>
      refine kept.congr rfl (fun j engaged => List.getElem?_set_ne ?_) slots
      intro same
      subst same
      exact move.disengaged isolated.positioned.criticalPlaced found engaged
  | outside w' outside =>
      exact kept.congr outside.critical (fun _ _ => by rw [outside.invocations]) slots
  | fault u f cause u_eq =>
      rcases u_eq with rfl | ⟨grabTracked, b, rfl⟩
      · exact kept.congr rfl (fun _ _ => rfl) slots
      · obtain ⟨store, same⟩ := checkExpired_store w grabTracked b
        rw [same] at slots ⊢
        exact kept.congr rfl (fun _ _ => rfl) slots
  | sweepEnd it i count grabTracked after impl critical present done =>
      refine nothing fun j b todo locked => ?_
      unfold finishCleanup
      cases after with
      | connect arguments => exact fun impossible => by cases impossible
      | invoke => exact fun impossible => by cases impossible
      | forceCleanup k =>
          dsimp only
          split <;> exact fun impossible => by cases impossible
  | assignCombiner combiner impl free present unique =>
      exact kept.congr rfl (fun _ _ => rfl) slots
  | replaceCombiner combiner impl free present shared =>
      exact kept.congr rfl (fun _ _ => rfl) slots
  | traverse impl kind free present =>
      exact kept.congr rfl (fun _ _ => rfl) slots
  | destroy impl present => exact kept.congr rfl (fun _ _ => rfl) slots
  | walk t tr tr' found walk => exact kept.congr rfl (fun _ _ => rfl) slots
  | _ => exact nothing fun _ _ _ _ impossible => by cases impossible

theorem Tracking.step (tracking : w.Tracking) (isolated : w.Isolated)
    (effect : Effect w a w') : w'.Tracking where
  committed := tracking.committed_step isolated effect
  grabbed := tracking.grabbed.step isolated effect

/-! ### Expired objects -/

/-- The grab for `b` still has to look at `p`. -/
def GrabPending (w : World σ) (b : BodyId) (p : VoidWeakPtr) : Prop :=
  (∃ client todo, w.critical = some (.grabTrackedObjects client b todo none) ∧ p ∈ todo) ∨
    ∃ client q rest object,
      w.critical = some (.grabTrackedObjects client b (q :: rest) (some object)) ∧ p ∈ rest

theorem GrabPending.congr {b : BodyId} {p : VoidWeakPtr} (pending : w.GrabPending b p)
    (critical : w'.critical = w.critical) : w'.GrabPending b p := by
  unfold GrabPending
  rw [critical]
  exact pending

theorem GrabPending.not_free {b : BodyId} {p : VoidWeakPtr} (pending : w.GrabPending b p) :
    w.critical ≠ none := by
  rcases pending with ⟨client, todo, critical, _⟩ | ⟨client, q, rest, object, critical, _⟩ <;>
    rw [critical] <;> exact fun impossible => by cases impossible

/-- A grab that still has to look at an expired object ends with a disconnection. -/
theorem GrabPending.ended {b other : BodyId} {p : VoidWeakPtr} {u : World σ}
    {client : GrabClient} {todo : List VoidWeakPtr} {locked : Option (Option ObjectId)}
    (pending : w.GrabPending b p)
    (critical : w.critical = some (.grabTrackedObjects client other todo locked))
    (ended : Ended w other todo locked u) : (u.bodies b).connected = false := by
  cases ended with
  | grabbed locked =>
      rcases pending with ⟨_, _, same, member⟩ | ⟨_, _, _, _, same, member⟩
      · cases critical.symm.trans same
        cases member
      · cases critical.symm.trans same
  | expired q rest expired =>
      have body : other = b := by
        rcases pending with ⟨_, _, same, member⟩ | ⟨_, _, _, _, same, member⟩ <;>
          cases critical.symm.trans same
        rfl
      subst body
      exact BodyStore.nolockDisconnect_connected other

theorem GrabPending.step {b : BodyId} {p : VoidWeakPtr} (pending : w.GrabPending b p)
    (expired : w.expired p = true) (effect : Effect w a w') :
    w'.GrabPending b p ∨ (w'.bodies b).connected = false := by
  cases effect with
  | promote client other q rest critical alive =>
      left
      rcases pending with ⟨_, _, same, member⟩ | ⟨_, _, _, _, same, member⟩
      · cases critical.symm.trans same
        refine .inr ⟨client, q, rest, _, rfl, ?_⟩
        rcases List.mem_cons.mp member with rfl | later
        · rw [expired] at alive
          cases alive
        · exact later
      · cases critical.symm.trans same
  | keep client other q rest object critical =>
      left
      rcases pending with ⟨_, _, same, member⟩ | ⟨_, _, _, _, same, member⟩
      · cases critical.symm.trans same
      · cases critical.symm.trans same
        exact .inl ⟨client, rest, rfl, member⟩
  | answer other todo locked u critical ended =>
      have disconnected := pending.ended critical ended
      exact .inr disconnected
  | count t other todo locked u tr critical ended found =>
      have disconnected := pending.ended critical ended
      exact .inr disconnected
  | commit i other locked inv critical found connected unblocked =>
      rcases pending with ⟨_, _, same, member⟩ | ⟨_, _, _, _, same, member⟩
      · cases critical.symm.trans same
        cases member
      · cases critical.symm.trans same
  | skip i other todo locked u inv critical ended found blocked =>
      have disconnected := pending.ended critical ended
      exact .inr disconnected
  | lost client other todo locked u critical ended missing =>
      have disconnected := pending.ended critical ended
      exact .inr disconnected
  | contains t other weakPimpl pimpl locked u tr critical tested found =>
      rcases pending with ⟨_, _, same, member⟩ | ⟨_, _, _, _, same, member⟩ <;>
        cases critical.symm.trans same
  | containsLost t other weakPimpl pimpl locked u critical tested missing =>
      rcases pending with ⟨_, _, same, member⟩ | ⟨_, _, _, _, same, member⟩ <;>
        cases critical.symm.trans same
  | sweepErase it i count grabTracked after impl other list next critical present inside more here
      dead erased =>
      rcases pending with ⟨_, _, same, member⟩ | ⟨_, _, _, _, same, member⟩ <;>
        cases critical.symm.trans same
  | sweepSkip it i count grabTracked after impl other critical present inside more here
      connected =>
      rcases pending with ⟨_, _, same, member⟩ | ⟨_, _, _, _, same, member⟩ <;>
        cases critical.symm.trans same
  | sweepEnd it i count grabTracked after impl critical present done =>
      rcases pending with ⟨_, _, same, member⟩ | ⟨_, _, _, _, same, member⟩ <;>
        cases critical.symm.trans same
  | sweepStart impl it count grabTracked after free present unique position ready =>
      exact absurd free pending.not_free
  | copyAndSweep impl grabTracked after free present shared ready =>
      exact absurd free pending.not_free
  | grabStart client other free ready => exact absurd free pending.not_free
  | disconnect other free alive => exact absurd free pending.not_free
  | throwExpired i inv other free found phase here => exact absurd free pending.not_free
  | walkDisconnect t tr other free found inside here targets =>
      exact absurd free pending.not_free
  | reachEnd i inv free found phase atEnd callable => exact absurd free pending.not_free
  | destroyCache i inv free found phase active => exact absurd free pending.not_free
  | containsStart t tr other weakPimpl pimpl free found inside here kind connected slot held
      wrapped => exact absurd free pending.not_free
  | outside w' outside => exact .inl (pending.congr outside.critical)
  | fault u f cause u_eq =>
      left
      rcases u_eq with rfl | ⟨grabTracked, other, rfl⟩
      · exact pending.congr rfl
      · obtain ⟨store, same⟩ := checkExpired_store w grabTracked other
        rw [same]
        exact pending.congr rfl
  | _ => exact .inl (pending.congr rfl)

theorem lockNext_pending {i : InvocationId} {inv : Invocation σ} {b : BodyId} {slot : Slot σ}
    {p : VoidWeakPtr} (found : w.invocations[i]? = some inv)
    (here : w.bodyAt inv.localState inv.iter = some b) (held : (w.bodies b).slot = some slot)
    (tracked : p ∈ slot.trackedObjects) (entered : w.lockNext i = some w') :
    w' = w.enterGrab (.iterator i) b ∧ w'.GrabPending b p := by
  simp only [lockNext, found, here] at entered
  split at entered
  · cases entered
    refine ⟨rfl, .inl ⟨.iterator i, _, rfl, ?_⟩⟩
    simpa only [ConnectionBody.trackedObjects, held] using tracked
  · cases entered

/-! ### Runs -/

/-- What every run keeps that leaves the combiner alone during invocations. -/
structure Guarding (w : World σ) : Prop where
  isolated : w.Isolated
  tracking : w.Tracking
  signals : w.fault ≠ some .expiredSignal

/-- The signal that a slot wraps is alive when the slot is called. -/
theorem Guarding.not_expired (guarding : w.Guarding) : ¬ Cause w a .expiredSignal := by
  intro cause
  cases cause with
  | expiredSignal i inv b slot weakPimpl found phase inside here held target gone =>
      have member := List.mem_of_getElem? found
      have tracked := slot.tracksSignal weakPimpl target
      have owned := guarding.tracking.committed inv member (.inl phase) inside b slot here held
        _ tracked rfl
      have alive : w.owned weakPimpl = true := owned_of_tracked member owned
      rw [gone] at alive
      cases alive

/-- What may still go wrong goes wrong in a cleanup, in a traversal, or in the janitor of
an invocation whose signal is gone. -/
theorem Guarding.cause_origin (guarding : w.Guarding) {f : Fault} (cause : Cause w a f) :
    a = .section ∨ (∃ i, a = .janitor i ∧ f = .destroyedImpl) ∨ ∃ t, a = .advance t := by
  have positioned := guarding.isolated.positioned
  cases cause with
  | iterDangling i inv found phase inside dangling =>
      exact absurd dangling (positioned.iter_here found phase inside)
  | callableDangling i inv found phase inside dangling =>
      exact absurd dangling (positioned.callable_here found (.inl phase) inside)
  | released i inv b found phase inside here gone =>
      exact absurd (.released i inv b found phase inside here gone) guarding.isolated.not_released
  | expiredSignal i inv b slot weakPimpl found phase inside here held target gone =>
      exact absurd (.expiredSignal i inv b slot weakPimpl found phase inside here held target gone)
        guarding.not_expired
  | janitorDestroyed i inv found phase many gone => exact .inr (.inl ⟨i, rfl, rfl⟩)
  | walkDangling t tr found progress inside dangling => exact .inr (.inr ⟨t, rfl⟩)
  | walkReleased t b connected gone => exact .inr (.inr ⟨t, rfl⟩)
  | _ => exact .inl rfl

theorem Guarding.step (guarding : w.Guarding) (alone : CombinerSetAlone w a)
    (stepped : w.step a = some w') : w'.Guarding := by
  obtain ⟨sound, effect⟩ := step_effect stepped
  exact {
    isolated := guarding.isolated.step alone.unread stepped
    tracking := guarding.tracking.step guarding.isolated effect
    signals := fun raised =>
      guarding.not_expired (guarding.isolated.counted.cause sound effect raised) }

/-- `p`, which the slot of `b` tracked, is gone; the slot is lost or about to be. -/
structure Expelled (b : BodyId) (slot : Slot σ) (p : VoidWeakPtr) (w : World σ) : Prop where
  known : b < w.nextBody
  slot : ∀ now, (w.bodies b).slot = some now → now = slot
  expired : w.expired p = true
  lost : w.GrabPending b p ∨ (w.bodies b).connected = false

theorem Expelled.step {b : BodyId} {slot : Slot σ} {p : VoidWeakPtr}
    (expelled : Expelled b slot p w) (effect : Effect w a w') : Expelled b slot p w' where
  known := Nat.lt_of_lt_of_le expelled.known effect.nextBody_le
  slot now held := expelled.slot now (effect.slot_kept expelled.known held)
  expired := expired_iff.mpr (effect.stays (expired_iff.mp expelled.expired))
  lost := by
    rcases expelled.lost with pending | disconnected
    · exact pending.step expelled.expired effect
    · right
      by_contra regained
      have connected := effect.connected_kept expelled.known (by simpa using regained)
      rw [disconnected] at connected
      cases connected

/-- Nobody calls the slot: a caller would own what it tracks. -/
theorem Expelled.uncalled {b : BodyId} {slot : Slot σ} {p : VoidWeakPtr}
    (expelled : Expelled b slot p w) (guarding : w.Guarding) (tracked : p ∈ slot.trackedObjects)
    (promotable : p.promotable = true) {inv : Invocation σ} (member : inv ∈ w.invocations)
    (phase : inv.phase = .ready ∨ inv.phase = .running) (inside : inv.iter.node ≠ none) :
    w.bodyAt inv.localState inv.iter ≠ some b := by
  intro here
  obtain ⟨other, here', active⟩ := guarding.isolated.committed member phase inside
  cases here.symm.trans here'
  obtain ⟨now, held⟩ := guarding.isolated.counted.slot_of_active member active
  cases expelled.slot now held
  have owned := guarding.tracking.committed inv member phase inside b slot here held p tracked
    promotable
  have alive : w.owned p.object = true := owned_of_tracked member owned
  rw [expired_iff.mp expelled.expired] at alive
  cases alive

/-- What an invocation relies on from its commitment to a slot until it moves on. -/
structure TrackedSafety (w : World σ) : Prop where
  owned : ∀ inv ∈ w.invocations, inv.phase = .ready ∨ inv.phase = .running →
    inv.iter.node ≠ none →
      ∃ b slot, w.bodyAt inv.localState inv.iter = some b ∧ (w.bodies b).slot = some slot ∧
        ∀ p ∈ slot.trackedObjects, p.promotable = true →
          some p.object ∈ inv.trackedPtrs ∧ w.expired p = false
  signals : w.fault ≠ some .expiredSignal

theorem Guarding.safety (guarding : w.Guarding) : w.TrackedSafety where
  signals := guarding.signals
  owned inv member phase inside := by
    obtain ⟨b, here, active⟩ := guarding.isolated.committed member phase inside
    obtain ⟨slot, held⟩ := guarding.isolated.counted.slot_of_active member active
    refine ⟨b, slot, here, held, fun p tracked promotable => ?_⟩
    have owned := guarding.tracking.committed inv member phase inside b slot here held p tracked
      promotable
    exact ⟨owned, not_expired_iff.mpr (owned_of_tracked member owned)⟩

theorem construct_guarding (combiner : σ.Combiner)
    (defaultCompare groupCompare : σ.Group → σ.Group → Bool) (owners : ObjectId → Nat) :
    (World.construct combiner defaultCompare groupCompare owners).Guarding where
  isolated := construct_isolated combiner defaultCompare groupCompare owners
  tracking := construct_tracking combiner defaultCompare groupCompare owners
  signals raised := by cases raised

/-- The slots being called have their tracked objects alive; one that is reached
with a tracked object expired is disconnected and not called any more. -/
theorem tracked_objects_safe {combiner : σ.Combiner}
    {defaultCompare groupCompare : σ.Group → σ.Group → Bool} {owners : ObjectId → Nat}
    (reached : Runs.Reachable World.step CombinerSetAlone
      (World.construct combiner defaultCompare groupCompare owners) w) :
    w.TrackedSafety ∧
      ∀ i inv b slot p entered later w', w.invocations[i]? = some inv →
        w.bodyAt inv.localState inv.iter = some b → (w.bodies b).slot = some slot →
        p ∈ slot.trackedObjects → w.expired p = true →
        w.step (.lockNext i) = some entered →
        Runs.Guarded World.step CombinerSetAlone entered later →
        Runs.run World.step entered later = some w' →
          (w'.critical = none → (w'.bodies b).connected = false) ∧
            (p.promotable = true → ∀ other ∈ w'.invocations,
              other.phase = .ready ∨ other.phase = .running → other.iter.node ≠ none →
                w'.bodyAt other.localState other.iter ≠ some b) := by
  have guarding := reached.invariant
    (fun _ _ _ (before : Guarding _) alone stepped => before.step alone stepped)
    (construct_guarding combiner defaultCompare groupCompare owners)
  refine ⟨guarding.safety, ?_⟩
  intro i inv b slot p entered later w' found here held tracked expired stepped guarded ran
  obtain ⟨sound, effect⟩ := step_effect stepped
  have locked : w.lockNext i = some entered := by
    simpa only [World.step, sound, Option.isSome_none, Bool.false_eq_true, if_false]
      using stepped
  obtain ⟨rfl, pending⟩ := lockNext_pending found here held tracked locked
  have start : Expelled b slot p (w.enterGrab (.iterator i) b) := {
    known := guarding.isolated.listed b (bodyAt_listed here)
    slot := fun now held' => Option.some.inj (held'.symm.trans held)
    expired := expired_iff.mpr (effect.stays (expired_iff.mp expired))
    lost := .inl pending }
  have keeps : ∀ (s : World σ) (a : Action σ) (next : World σ),
      s.Guarding ∧ Expelled b slot p s → CombinerSetAlone s a → s.step a = some next →
      next.Guarding ∧ Expelled b slot p next :=
    fun _ _ _ before alone stepped =>
      ⟨before.1.step alone stepped, before.2.step (step_effect stepped).2⟩
  have unset : CombinerSetAlone w (.lockNext i) := fun combiner same => by cases same
  obtain ⟨guarding', expelled⟩ :=
    Runs.run_invariant keeps ⟨guarding.step unset stepped, start⟩ guarded ran
  refine ⟨fun free => ?_, fun promotable other member phase inside => ?_⟩
  · rcases expelled.lost with pending | disconnected
    · exact absurd free pending.not_free
    · exact disconnected
  · exact expelled.uncalled guarding' tracked promotable member phase inside

end World

/-! ### A run -/

/-- A new signal while every object has one owner outside. -/
def ownedStart : World natSignal :=
  World.construct 0 (fun a b => decide (a < b)) (fun a b => decide (a < b)) fun _ => 1

/-- Two slots track an object each; the second object is dropped. -/
def callTrackingSlot : List (Action natSignal) :=
  [.connect { group := none, slot := .ofFunctor 10 [.boost 7], position := .atBack }, .section,
    .connect { group := none, slot := .ofFunctor 11 [.foreign 8], position := .atBack },
    .section, .section, .drop 8, .invoke, .section, .section, .lockNext 0, .section, .section,
    .section, .dereference 0, .drop 7, .slotReturns 0 5, .increment 0, .clearTracked 0]

theorem callTrackingSlot_safe :
    ∃ w entered w' : World natSignal,
      Runs.run World.step ownedStart callTrackingSlot = some w ∧
      w.step (.lockNext 0) = some entered ∧ Runs.run World.step entered [.section] = some w' ∧
      w.TrackedSafety ∧ (w'.bodies 1).connected = false := by
  obtain ⟨w, ran⟩ : ∃ w, Runs.run World.step ownedStart callTrackingSlot = some w := ⟨_, rfl⟩
  have alone : Runs.Guarded World.step World.CombinerSetAlone ownedStart callTrackingSlot :=
    World.CombinerSetAlone.of_forall (by simp [callTrackingSlot])
  obtain ⟨safe, expelled⟩ := World.tracked_objects_safe ⟨_, alone, ran⟩
  cases ran
  refine ⟨_, _, _, rfl, rfl, rfl, safe, ?_⟩
  have quiet : ∀ w : World natSignal, Runs.Guarded World.step World.CombinerSetAlone w [.section] :=
    fun w => World.CombinerSetAlone.of_forall (by simp)
  exact (expelled 0 _ 1 _ (.foreign 8) _ [.section] _ rfl rfl rfl (by decide) rfl rfl
    (quiet _) rfl).1 rfl

end Signals2
