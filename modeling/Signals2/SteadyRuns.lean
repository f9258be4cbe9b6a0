/-
What one signal of several goes through.  Its objects are released and it is destroyed by
what happens elsewhere, at any moment.  In such a run nothing fails as long as what outlives
the signal does not need it.
-/

import Signals2.Destruction
import Signals2.SlotOwnership

namespace Signals2

open OrderedInsertion

variable {σ : SignalTemplate}

/-- Who owns an object, and whether the signal is there, is decided outside. -/
def Action.ofOwner : Action σ → Bool
  | .destroy | .acquire _ | .drop _ => true
  | _ => false

namespace World

variable {w w' : World σ} {a : Action σ} {compare : σ.Group → σ.Group → Bool}

def phaseOf (w : World σ) (i : InvocationId) : Option Phase :=
  w.invocations[i]?.map Invocation.phase

/-! ### Owners -/

theorem step_owners (stepped : w.step a = some w') (library : a.ofOwner = false) :
    w'.owners = w.owners := by
  by_cases locks : w.locksMutex a = true
  · exact (locked_slotsKept locks stepped).owners
  have sound := (step_effect stepped).1
  simp only [World.step, sound, Option.isSome_none, Bool.false_eq_true, if_false] at stepped
  cases a with
  | «section» => exact absurd rfl locks
  | reachEnd i => exact (reachEnd_slotsKept stepped).owners
  | slotThrows i expiredSlot => exact (slotThrows_slotsKept stepped).owners
  | janitor i => exact (janitor_slotsKept stepped).owners
  | destroyCache i => exact (destroyCache_slotsKept stepped).owners
  | advance t => exact (advance_slotsKept stepped).owners
  | block k => exact (block_slotsKept stepped).owners
  | connect arguments =>
      obtain ⟨impl, locked, _⟩ := Option.map_eq_some_iff.mp stepped
      simp [locksMutex, (lockImpl_some locked).1] at locks
  | setCombiner combiner =>
      obtain ⟨impl, locked, _⟩ := Option.map_eq_some_iff.mp stepped
      simp [locksMutex, (lockImpl_some locked).1] at locks
  | invoke =>
      obtain ⟨impl, locked, _⟩ := Option.map_eq_some_iff.mp stepped
      simp [locksMutex, (lockImpl_some locked).1] at locks
  | traverse kind =>
      obtain ⟨impl, locked, _⟩ := Option.map_eq_some_iff.mp stepped
      simp [locksMutex, (lockImpl_some locked).1] at locks
  | release n =>
      simp only [World.release] at stepped
      split at stepped <;> cases stepped
      rfl
  | promote b =>
      simp only [World.promote] at stepped
      split at stepped <;> cases stepped
      rfl
  | constructBlock b =>
      cases stepped
      rfl
  | copyBlock k =>
      obtain ⟨original, _, rfl⟩ := Option.map_eq_some_iff.mp stepped
      rfl
  | unblock k =>
      obtain ⟨original, _, rfl⟩ := Option.map_eq_some_iff.mp stepped
      rfl
  | destroy => cases library
  | acquire o => cases library
  | drop o => cases library
  | disconnect b =>
      simp only [World.disconnect] at stepped
      split at stepped
      · cases stepped
      · rename_i free
        simp [locksMutex] at locks
        simp [locks] at free
  | connected b =>
      simp only [World.connected] at stepped
      split at stepped
      · cases stepped
      · rename_i free
        simp [locksMutex] at locks
        simp [locks] at free
  | clearTracked i =>
      simp only [World.clearTracked] at stepped
      split at stepped
      · cases stepped
      · split at stepped
        · cases stepped
        · split at stepped <;> cases stepped
          rfl
  | lockNext i =>
      simp only [World.lockNext] at stepped
      split at stepped
      · cases stepped
      · split at stepped
        · rename_i ready
          simp [locksMutex, ready.2.2.2] at locks
        · cases stepped
  | dereference i =>
      simp only [World.dereference] at stepped
      split at stepped
      · cases stepped
      · split at stepped
        · repeat' split at stepped
          all_goals cases stepped; rfl
        · cases stepped
  | slotReturns i result =>
      simp only [World.slotReturns] at stepped
      split at stepped
      · cases stepped
      · split at stepped <;> cases stepped
        rfl
  | increment i =>
      simp only [World.increment] at stepped
      split at stepped
      · cases stepped
      · split at stepped
        · split at stepped <;> cases stepped <;> rfl
        · cases stepped
  | finish i =>
      simp only [World.finish] at stepped
      split at stepped
      · cases stepped
      · split at stepped <;> cases stepped
        rfl
  | releaseState i =>
      simp only [World.releaseState] at stepped
      split at stepped
      · cases stepped
      · split at stepped <;> cases stepped
        rfl

theorem run_drops {released : List ObjectId} (sound : w.fault = none) (distinct : released.Nodup)
    (single : ∀ o ∈ released, w.owners o = 1) :
    Runs.run World.step w (released.map .drop) =
      some { w with owners := fun o => if o ∈ released then 0 else w.owners o } := by
  induction released generalizing w with
  | nil => rfl
  | cons o rest ih =>
      have once : w.owners o = 1 := single o List.mem_cons_self
      have stepped : w.step (.drop o) =
          some { w with owners := Function.update w.owners o (w.owners o - 1) } := by
        simp [World.step, sound, World.drop, once]
      have others : ∀ p ∈ rest, Function.update w.owners o (w.owners o - 1) p = 1 := by
        intro p member
        have differ : p ≠ o := fun same => (List.nodup_cons.mp distinct).1 (same ▸ member)
        rw [Function.update_of_ne differ]
        exact single p (List.mem_cons_of_mem o member)
      have later := ih (w := { w with owners := Function.update w.owners o (w.owners o - 1) })
        sound (List.nodup_cons.mp distinct).2 others
      simp only [List.map_cons, Runs.run, stepped, later]
      congr 2
      funext p
      by_cases same : p = o
      · subst same
        simp [once]
      · simp [same]

/-! ### Slots that a signal comes to have -/

/-- What the client that cleans up is going to do. -/
def sweepFor (w : World σ) : Option (AfterCleanup σ) :=
  match w.critical with
  | some (.cleanupConnections _ _ _ _ after) => some after
  | _ => none

theorem sweepFor_of_free (free : w.critical = none) : w.sweepFor = none := by
  simp only [sweepFor, free]

/-- The cleanup that a step of a client without the mutex starts. -/
inductive Starts : Action σ → Option (AfterCleanup σ) → Prop
  | nothing {a : Action σ} : Starts a none
  | connect (arguments : ConnectArguments σ) :
      Starts (.connect arguments) (some (.connect arguments))
  | invoke : Starts .invoke (some .invoke)
  | janitor (i : InvocationId) : Starts (.janitor i) (some (.forceCleanup i))

theorem step_starts (stepped : w.step a = some w') (free : w.critical = none) :
    Starts a w'.sweepFor := by
  have none_ : ∀ {u : World σ}, u.critical = none → Starts a u.sweepFor := by
    intro u idle
    rw [sweepFor_of_free idle]
    exact .nothing
  have sound := (step_effect stepped).1
  simp only [World.step, sound, Option.isSome_none, Bool.false_eq_true, if_false] at stepped
  cases a with
  | connect arguments =>
      obtain ⟨impl, _, rfl⟩ := Option.map_eq_some_iff.mp stepped
      unfold nolockForceUniqueConnectionList
      split <;> exact .connect arguments
  | setCombiner combiner =>
      obtain ⟨impl, _, rfl⟩ := Option.map_eq_some_iff.mp stepped
      split <;> exact none_ free
  | invoke =>
      obtain ⟨impl, _, rfl⟩ := Option.map_eq_some_iff.mp stepped
      split
      · exact .invoke
      · exact none_ free
  | traverse kind =>
      obtain ⟨impl, _, rfl⟩ := Option.map_eq_some_iff.mp stepped
      exact none_ free
  | destroy =>
      obtain ⟨impl, _, rfl⟩ := Option.map_eq_some_iff.mp stepped
      exact none_ free
  | «section» => simp [sectionStep, free] at stepped
  | disconnect b =>
      simp only [World.disconnect, free, Option.isSome_none, Bool.false_eq_true,
        if_false] at stepped
      split at stepped <;> cases stepped
      · exact .nothing
      · exact none_ free
  | connected b =>
      simp only [World.connected, free, Option.isSome_none, Bool.false_eq_true, if_false] at stepped
      split at stepped <;> cases stepped <;> exact .nothing
  | lockNext i =>
      simp only [World.lockNext] at stepped
      split at stepped
      · cases stepped
      · split at stepped
        · split at stepped <;> cases stepped
          · exact none_ free
          · exact .nothing
        · cases stepped
  | reachEnd i =>
      simp only [World.reachEnd] at stepped
      split at stepped
      · cases stepped
      · split at stepped
        · split at stepped
          · cases stepped
            exact none_ free
          · split at stepped
            · cases stepped
            · split at stepped <;> cases stepped
              · exact none_ free
              · exact .nothing
        · cases stepped
  | janitor i =>
      simp only [World.janitor] at stepped
      repeat' split at stepped
      all_goals cases stepped
      all_goals first | exact .janitor i | exact none_ free
  | advance t =>
      simp only [World.advance, World.doDisconnect] at stepped
      repeat' split at stepped
      all_goals cases stepped
      all_goals first | exact .nothing | exact none_ free
  | block k =>
      simp only [World.block, World.getBlocker] at stepped
      repeat' split at stepped
      all_goals cases stepped
      all_goals exact none_ free
  | copyBlock k =>
      obtain ⟨original, _, rfl⟩ := Option.map_eq_some_iff.mp stepped
      exact none_ free
  | unblock k =>
      obtain ⟨original, _, rfl⟩ := Option.map_eq_some_iff.mp stepped
      exact none_ free
  | _ =>
      simp only [World.clearTracked, World.dereference, World.slotReturns, World.slotThrows,
        World.increment, World.finish, World.destroyCache, World.releaseState, World.release,
        World.promote, World.acquire, World.drop, World.constructBlock] at stepped
      repeat' split at stepped
      all_goals cases stepped
      all_goals first | exact .nothing | exact none_ free

/-- An invocation joins in one step, or after the cleanup that it starts with. -/
theorem invoke_begins (stepped : w.step .invoke = some w') :
    w.critical = none ∧ (w.invocations.length < w'.invocations.length ∨
      w'.sweepFor = some .invoke) := by
  have sound := (step_effect stepped).1
  simp only [World.step, sound, Option.isSome_none, Bool.false_eq_true, if_false,
    World.invoke] at stepped
  obtain ⟨impl, locked, rfl⟩ := Option.map_eq_some_iff.mp stepped
  constructor
  · exact (lockImpl_some locked).1
  · split
    · exact .inr rfl
    · left
      simp [startInvocation]

/-- The client that holds the mutex goes on with its cleanup, or unlocks at the end of it. -/
theorem Effect.sweeps (effect : Effect w a w') (taken : w.critical ≠ none) :
    w'.sweepFor = w.sweepFor ∨ w'.sweepFor = none ∧ (w.sweepFor = some .invoke →
      w'.invocations.length = w.invocations.length + 1) := by
  by_cases acting : a = .section
  · subst acting
    cases effect with
    | sweepErase it k count grabTracked after impl b list next critical =>
        left
        simp only [sweepFor, critical, enter]
    | sweepSkip it k count grabTracked after impl b critical =>
        left
        simp only [sweepFor, critical, enter]
    | sweepEnd it k count grabTracked after impl critical present done =>
        right
        constructor
        · exact sweepFor_of_free (finishCleanup_critical _ impl it after)
        · intro going
          simp only [sweepFor, critical, Option.some.injEq] at going
          subst going
          exact List.length_append
    | sweepStart impl it count grabTracked after free => exact absurd free taken
    | copyAndSweep impl grabTracked after free => exact absurd free taken
    | grabStart client b free ready => exact absurd free taken
    | outside w' outside =>
        left
        rw [sweepFor, sweepFor, outside.critical]
    | fault u f cause u_eq =>
        left
        rcases u_eq with rfl | ⟨grabTracked, b, rfl⟩
        · rfl
        · obtain ⟨store, same⟩ := checkExpired_store w grabTracked b
          rw [same]
          rfl
    | move i inv inv' found move => exact .inl rfl
    | _ =>
        right
        constructor
        · rfl
        · intro going
          simp only [sweepFor, *] at going
          cases going
  · left
    rw [sweepFor, sweepFor, (effect.excludes taken acting).1]

/-- The slot of a connection, or of one that is being made. -/
def HasSlot (w : World σ) (slot : Slot σ) : Prop :=
  (∃ b, (w.bodies b).slot = some slot) ∨ ∃ arguments, w.sweepFor = some (.connect arguments) ∧
    arguments.slot = slot

theorem step_hasSlot (stepped : w.step a = some w') {slot : Slot σ} (has : w'.HasSlot slot) :
    w.HasSlot slot ∨ ∃ arguments, a = .connect arguments ∧ arguments.slot = slot := by
  have effect := (step_effect stepped).2
  rcases has with ⟨b, held⟩ | ⟨arguments, connecting, same⟩
  · left
    rcases effect.ages with ages | ⟨_, arguments, connects, bodies, _⟩
    · exact .inl ⟨b, (ages.bodies b).slot slot held⟩
    · rw [bodies] at held
      by_cases new : b = w.nextBody
      · subst new
        rw [BodyStore.newConnectionBody_new] at held
        obtain ⟨it, k, count, grabTracked, impl, critical, _⟩ := connects
        right
        refine ⟨arguments, ?_, Option.some.inj held⟩
        simp only [sweepFor, critical]
      · rw [BodyStore.newConnectionBody_old _ _ new] at held
        exact .inl ⟨b, held⟩
  · by_cases free : w.critical = none
    · have starts := step_starts stepped free
      rw [connecting] at starts
      cases starts
      exact .inr ⟨arguments, rfl, same⟩
    · rcases effect.sweeps free with kept | ⟨ended, _⟩
      · rw [kept] at connecting
        exact .inl (.inr ⟨arguments, connecting, same⟩)
      · rw [ended] at connecting
        cases connecting

/-! ### What is let go -/

/-- What an invocation that is over has let go of, and the lock that is not held. -/
structure Emptied (w : World σ) : Prop where
  pointers : ∀ inv ∈ w.invocations, inv.phase = .done → inv.trackedPtrs = []
  garbage : w.critical = none → w.garbage = []

theorem counted_trackedPtrs (inv : Invocation σ) (connected : Bool) :
    (counted inv connected).trackedPtrs = inv.trackedPtrs := by
  cases connected <;> rfl

theorem Progress.emptied {inv' : Invocation σ} (how : Progress w i inv a inv')
    (placed : w.SectionPlaced) (found : w.invocations[i]? = some inv)
    (before : inv.phase = .done → inv.trackedPtrs = []) (finished : inv'.phase = .done) :
    inv'.trackedPtrs = [] := by
  cases how with
  | move move =>
      cases move with
      | clear some outside phase =>
          rcases phase with ⟨phase, _⟩ | phase <;> rw [phase] at finished <;> cases finished
      | increment phase inside here =>
          dsimp only at finished
          split at finished <;> cases finished
      | releaseState phase cleared => exact cleared
      | _ => cases finished
  | insert b p rest locked critical =>
      have searching := (placed.grab critical found).1
      rw [searching] at finished
      cases finished
  | skip b todo locked u critical ended blocked =>
      exact (counted_trackedPtrs inv _).trans (before ((counted_phase inv _).symm.trans finished))
  | _ => cases finished

theorem Effect.garbage (effect : Effect w a w') (sound : w'.fault = none)
    (before : w.critical = none → w.garbage = []) (free : w'.critical = none) :
    w'.garbage = [] := by
  cases effect with
  | sweepStart impl it count grabTracked after => cases free
  | copyAndSweep impl grabTracked after => cases free
  | grabStart client b => cases free
  | promote client b p rest critical alive => cases free
  | keep client b p rest locked critical => cases free
  | containsStart t tr b weakPimpl pimpl => cases free
  | sweepErase it i count grabTracked after impl b list next => cases free
  | sweepSkip it i count grabTracked after impl b => cases free
  | assignCombiner combiner impl unlocked => exact before unlocked
  | replaceCombiner combiner impl unlocked => exact before unlocked
  | start impl unlocked => exact before unlocked
  | traverse impl kind unlocked => exact before unlocked
  | destroy impl present => exact before free
  | move i inv inv' found move => exact before free
  | walk t tr tr' found walk => exact before free
  | outside w' outside => exact outside.garbage.trans (before (outside.critical ▸ free))
  | fault u f cause u_eq => cases sound
  | sweepEnd it i count grabTracked after impl critical present done =>
      unfold finishCleanup
      cases after with
      | connect arguments => rfl
      | invoke => rfl
      | forceCleanup j =>
          dsimp only
          split <;> rfl
  | _ => rfl

theorem Emptied.step (emptied : w.Emptied) (placed : w.SectionPlaced) (effect : Effect w a w')
    (sound : w'.fault = none) : w'.Emptied := by
  refine ⟨fun inv member finished => ?_, effect.garbage sound emptied.garbage⟩
  cases effect.invocations with
  | same invocations => exact emptied.pointers inv (invocations ▸ member) finished
  | join impl present invocations lists =>
      rw [invocations] at member
      rcases List.mem_append.mp member with old | new
      · exact emptied.pointers inv old finished
      · cases List.mem_singleton.mp new
        rfl
  | progress j old new found how invocations =>
      rw [invocations] at member
      rcases List.mem_or_eq_of_mem_set member with kept | rfl
      · exact emptied.pointers inv kept finished
      · exact how.emptied placed found
          (emptied.pointers old (List.mem_of_getElem? found)) finished

/-! ### Runs in which the signal may be destroyed -/

/-- `set_combiner` is called while nothing is in progress, and what outlives the signal does
not need it. -/
def Tame (w : World σ) (a : Action σ) : Prop :=
  (∀ combiner, a = .setCombiner combiner →
    (∀ inv ∈ w.invocations, inv.localState = none) ∧
      ∀ tr ∈ w.traversals, tr.localState = none) ∧ Spared w a

/-- What holds in such a run whether the signal is still there or not. -/
structure Steady (compare : σ.Group → σ.Group → Bool) (w : World σ) : Prop where
  guarding : w.Guarding
  apart : w.ListsApart .traversal
  current : w.Current compare
  walking : w.Walking compare
  todo : w.GrabTodo
  emptied : w.Emptied
  sound : w.fault = none

theorem construct_steady (combiner : σ.Combiner) (compare : σ.Group → σ.Group → Bool)
    (owners : ObjectId → Nat) :
    (World.construct combiner compare compare owners).Steady compare where
  guarding := construct_guarding combiner compare compare owners
  apart := construct_listsApart combiner compare compare owners
  current := construct_current combiner compare owners
  walking := construct_walking combiner compare compare owners
  todo client b todo locked taken := by cases taken
  emptied := ⟨List.forall_mem_nil _, fun _ => rfl⟩
  sound := rfl

theorem Steady.orderly (steady : w.Steady compare) (present : w.heap.impl ≠ none) :
    w.Orderly compare where
  guarding := steady.guarding
  apart := steady.apart
  current := steady.current
  walking := steady.walking
  todo := steady.todo
  present := present
  sound := steady.sound

/-- Without the signal only traversals could go wrong, and they are where they should be. -/
theorem Steady.no_cause (steady : w.Steady compare) (order : StrictWeak compare)
    (spared : Spared w a) (stepped : w.step a = some w') {f : Fault} (raised : w'.fault = some f) :
    ¬ Cause w a f := by
  intro cause
  have isolated := steady.guarding.isolated
  cases present : w.heap.impl with
  | some impl =>
      have there : w.heap.impl ≠ none := by simp [present]
      exact (steady.orderly there).no_cause order cause
  | none =>
      have touched : f ≠ .destroyedImpl := by
        rintro rfl
        exact (spared_iff isolated.counted stepped).mpr spared raised
      cases cause with
      | sweepDestroyed it k count grabTracked after critical gone => exact touched rfl
      | sweepDangling it k count grabTracked after impl critical there inside dangling =>
          rw [present] at there
          cases there
      | eraseAssertion it k count grabTracked after impl b critical there found failed =>
          rw [present] at there
          cases there
      | iterDangling i inv found phase inside dangling =>
          exact absurd dangling (isolated.positioned.iter_here found phase inside)
      | callableDangling i inv found phase inside dangling =>
          exact absurd dangling (isolated.positioned.callable_here found (.inl phase) inside)
      | released i inv b found phase inside here gone =>
          exact isolated.not_released (.released i inv b found phase inside here gone)
      | expiredSignal i inv b slot weakPimpl found phase inside here held target gone =>
          exact steady.guarding.not_expired
            (.expiredSignal i inv b slot weakPimpl found phase inside here held target gone)
      | janitorDestroyed i inv found phase many gone => exact touched rfl
      | walkDangling t tr found progress inside dangling =>
          obtain ⟨s, state⟩ := Option.ne_none_iff_exists'.mp progress
          obtain ⟨before, rest, after, walked⟩ :=
            steady.walking.underway tr (List.mem_of_getElem? found) s state
          obtain ⟨node, later, _, here, _⟩ := walked.here state inside
          rw [dangling] at here
          cases here
      | walkReleased t b connected gone =>
          exact isolated.not_released (.walkReleased t b connected gone)

theorem Steady.step (steady : w.Steady compare) (order : StrictWeak compare) (tame : Tame w a)
    (stepped : w.step a = some w') : w'.Steady compare := by
  obtain ⟨sound, effect⟩ := step_effect stepped
  have isolated := steady.guarding.isolated
  have alone : CombinerSetAlone w a := fun combiner same => (tame.1 combiner same).1
  have unread : ListUnread .traversal w a := by
    intro combiner same s current r member
    obtain ⟨tr, inside, state⟩ := List.mem_map.mp member
    rw [(tame.1 combiner same).2 tr inside] at state
    cases state
  have sound' : w'.fault = none := by
    cases raised : w'.fault with
    | none => rfl
    | some f =>
        have cause := isolated.counted.cause sound effect raised
        exact absurd cause (steady.no_cause order tame.2 stepped raised)
  exact {
    guarding := steady.guarding.step alone stepped
    apart := steady.apart.step isolated.sharing unread effect.change
    current := steady.current.step order isolated.listed effect
    walking := steady.walking.step order steady.current isolated steady.apart effect
    todo := steady.todo.step effect
    emptied := steady.emptied.step isolated.positioned.criticalPlaced effect sound'
    sound := sound' }

/-- The end of a run of its own, in which nothing went wrong. -/
def Came (w : World σ) : Prop :=
  ∃ combiner compare owners, StrictWeak compare ∧
    Runs.Reachable World.step Tame (World.construct combiner compare compare owners) w

theorem Came.steady (came : w.Came) : ∃ compare, StrictWeak compare ∧ w.Steady compare := by
  obtain ⟨combiner, compare, owners, order, reached⟩ := came
  have keeps : ∀ (s : World σ) (a : Action σ) (next : World σ), s.Steady compare → Tame s a →
      s.step a = some next → next.Steady compare :=
    fun _ _ _ steady tame stepped => steady.step order tame stepped
  exact ⟨compare, order, reached.invariant keeps (construct_steady combiner compare owners)⟩

theorem Came.continues {actions : List (Action σ)} (came : w.Came)
    (guarded : Runs.Guarded World.step Tame w actions)
    (ran : Runs.run World.step w actions = some w') : w'.Came := by
  obtain ⟨combiner, compare, owners, order, earlier, before, reached⟩ := came
  refine ⟨combiner, compare, owners, order, earlier ++ actions, ?_, ?_⟩
  · exact (Runs.guarded_append reached).mpr ⟨before, guarded⟩
  · rw [Runs.run_append, reached]
    exact ran

/-- A slot function runs until it returns or throws. -/
theorem Steady.running_kept (steady : w.Steady compare) (stepped : w.step a = some w')
    {i : InvocationId} (running : w.phaseOf i = some .running)
    (returns : ∀ result, a ≠ .slotReturns i result) (throws : ∀ e, a ≠ .slotThrows i e) :
    w'.phaseOf i = some .running := by
  have effect := (step_effect stepped).2
  have placed := steady.guarding.isolated.positioned.criticalPlaced
  obtain ⟨inv, found, phase⟩ := Option.map_eq_some_iff.mp running
  have inside : i < w'.invocations.length := by
    have before := (List.getElem?_eq_some_iff.mp found).1
    cases effect.invocations with
    | same invocations => rwa [invocations]
    | progress j old new found' how invocations => rwa [invocations, List.length_set]
    | join impl present invocations lists =>
        rw [invocations, List.length_append]
        exact Nat.lt_add_right _ before
  have found' : w'.invocations[i]? = some w'.invocations[i] := List.getElem?_eq_getElem inside
  rw [phaseOf, found', Option.map_some]
  congr 1
  rcases effect.progress found found' with same | how
  · rw [same]
    exact phase
  · generalize w'.invocations[i] = inv' at how
    cases how with
    | move move =>
        cases move with
        | clear nonempty outside either =>
            rcases either with ⟨searching, _⟩ | releasing
            · rw [phase] at searching; cases searching
            · rw [phase] at releasing; cases releasing
        | returns result running => exact absurd rfl (returns result)
        | throws running => exact absurd rfl (throws false)
        | call b slot ready inside first here held promoted => rfl
        | reachEnd searching atEnd idle => rw [phase] at searching; cases searching
        | increment ready inside here => rw [phase] at ready; cases ready
        | finish ready => rw [phase] at ready; cases ready
        | leave janitor few => rw [phase] at janitor; cases janitor
        | skipCache destructing idle => rw [phase] at destructing; cases destructing
        | releaseState releasing cleared => rw [phase] at releasing; cases releasing
    | insert b p rest locked critical => exact phase
    | commit b locked critical connected unblocked =>
        have searching := (placed.grab critical found).1
        rw [phase] at searching
        cases searching
    | skip b todo locked u critical ended blocked =>
        have searching := (placed.grab critical found).1
        rw [phase] at searching
        cases searching
    | reachEnd free searching atEnd callable => rw [phase] at searching; cases searching
    | destroyCache free destructing active => rw [phase] at destructing; cases destructing
    | forced it k count grabTracked critical =>
        have janitor := (placed.forced critical found).1
        rw [phase] at janitor
        cases janitor
    | throwExpired running => exact absurd rfl (throws true)

/-- What runs is not called again. -/
theorem not_running_of_dereference {i : InvocationId}
    (stepped : w.step (.dereference i) = some w') : w.phaseOf i ≠ some .running := by
  intro running
  obtain ⟨inv, found, phase⟩ := Option.map_eq_some_iff.mp running
  have sound := (step_effect stepped).1
  simp [World.step, sound, World.dereference, found, phase] at stepped

theorem spared_of_present (present : w.heap.impl ≠ none) : Spared w a where
  janitor _ _ _ _ _ gone := absurd gone present
  cleanup _ gone := absurd gone present

theorem tame_of_owner (library : a.ofOwner = true) : Tame w a := by
  constructor
  · rintro combiner rfl
    cases library
  · constructor
    · rintro i inv rfl
      cases library
    · rintro rfl
      cases library

end World

end Signals2
