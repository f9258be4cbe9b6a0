/-
Undisturbed runs: the signal is not destroyed, and its combiner is set only while
nothing is in progress.  With one group comparison throughout, no step of such a
run fails an assertion or touches anything that is gone.
-/

import Signals2.Traversals

namespace Signals2

open LinkedLists OrderedInsertion

variable {σ : SignalTemplate}

namespace World

variable {w w' : World σ} {a : Action σ} {compare : σ.Group → σ.Group → Bool}

/-- The signal stays, and `set_combiner` is called while no invocation and no
traversal is in progress. -/
def Undisturbed (w : World σ) (a : Action σ) : Prop :=
  a ≠ .destroy ∧ ∀ combiner, a = .setCombiner combiner →
    (∀ inv ∈ w.invocations, inv.localState = none) ∧
      ∀ tr ∈ w.traversals, tr.localState = none

theorem Undisturbed.alone (undisturbed : Undisturbed w a) : CombinerSetAlone w a :=
  fun combiner same => (undisturbed.2 combiner same).1

theorem Undisturbed.unread (undisturbed : Undisturbed w a) : ListUnread .traversal w a := by
  intro combiner same s current r member
  obtain ⟨tr, inside, state⟩ := List.mem_map.mp member
  rw [(undisturbed.2 combiner same).2 tr inside] at state
  cases state

theorem Undisturbed.of_forall {actions : List (Action σ)}
    (stays : Action.destroy ∉ actions) (others : ∀ c, Action.setCombiner c ∉ actions) :
    Runs.Guarded World.step Undisturbed w actions := by
  refine .of_forall fun a member s => ⟨fun same => ?_, fun combiner same => ?_⟩
  · exact absurd (same ▸ member) stays
  · exact absurd (same ▸ member) (others combiner)

/-- The objects that a grab still has to look at are tracked by its body's slot. -/
def GrabTodo (w : World σ) : Prop :=
  ∀ client b todo locked, w.critical = some (.grabTrackedObjects client b todo locked) →
    ∀ slot, (w.bodies b).slot = some slot → ∀ p ∈ todo, p ∈ slot.trackedObjects

private theorem GrabTodo.congr (tracked : w.GrabTodo) (critical : w'.critical = w.critical)
    (slots : ∀ b slot, (w'.bodies b).slot = some slot → (w.bodies b).slot = some slot) :
    w'.GrabTodo := by
  intro client b todo locked taken slot held
  rw [critical] at taken
  exact tracked client b todo locked taken slot (slots b slot held)

theorem GrabTodo.step (tracked : w.GrabTodo) (effect : Effect w a w') : w'.GrabTodo := by
  have nothing : (∀ client b todo locked,
      w'.critical ≠ some (.grabTrackedObjects client b todo locked)) → w'.GrabTodo :=
    fun none client b todo locked taken => absurd taken (none client b todo locked)
  cases effect with
  | grabStart client b free ready =>
      intro client' b' todo locked taken slot held p member
      cases taken
      have known : (w.bodies b).slot = some slot := held
      simpa only [ConnectionBody.trackedObjects, known] using member
  | promote client b p rest critical alive =>
      intro client' b' todo locked taken
      cases taken
      exact tracked client b (p :: rest) none critical
  | keep client b p rest locked critical =>
      intro client' b' todo locked' taken slot held q member
      cases taken
      refine tracked client b (p :: rest) (some locked) critical slot ?_ q
        (List.mem_cons_of_mem p member)
      revert held
      unfold insertLocked
      split
      · split <;> exact id
      · exact id
  | assignCombiner combiner impl free present unique =>
      exact tracked.congr rfl fun _ _ => id
  | replaceCombiner combiner impl free present shared =>
      exact tracked.congr rfl fun _ _ => id
  | start impl free present shared => exact tracked.congr rfl fun _ _ => id
  | traverse impl kind free present => exact tracked.congr rfl fun _ _ => id
  | destroy impl present => exact tracked.congr rfl fun _ _ => id
  | move i inv inv' found move => exact tracked.congr rfl fun _ _ => id
  | walk t tr tr' found walk => exact tracked.congr rfl fun _ _ => id
  | outside w' outside =>
      refine tracked.congr outside.critical fun b slot held => ?_
      rw [outside.bodies b] at held
      exact held
  | fault u f cause u_eq =>
      rcases u_eq with rfl | ⟨grabTracked, b, rfl⟩
      · exact tracked.congr rfl fun _ _ => id
      · have ages := checkExpired_ages (w := w) grabTracked b
        refine tracked.congr ?_ fun other slot => (ages.bodies other).slot slot
        obtain ⟨store, same⟩ := checkExpired_store w grabTracked b
        rw [same]
        rfl
  | sweepEnd it i count grabTracked after impl critical present done =>
      refine nothing fun client b todo locked => ?_
      unfold finishCleanup
      cases after with
      | connect arguments => exact fun impossible => by cases impossible
      | invoke => exact fun impossible => by cases impossible
      | forceCleanup k =>
          dsimp only
          split <;> exact fun impossible => by cases impossible
  | _ => exact nothing fun _ _ _ _ impossible => by cases impossible

/-! ### Everything such a run keeps -/

structure Orderly (compare : σ.Group → σ.Group → Bool) (w : World σ) : Prop where
  guarding : w.Guarding
  apart : w.ListsApart .traversal
  current : w.Current compare
  walking : w.Walking compare
  todo : w.GrabTodo
  present : w.heap.impl ≠ none
  sound : w.fault = none

theorem construct_orderly (combiner : σ.Combiner) (compare : σ.Group → σ.Group → Bool)
    (owners : ObjectId → Nat) :
    (World.construct combiner compare compare owners).Orderly compare where
  guarding := construct_guarding combiner compare compare owners
  apart := construct_listsApart combiner compare compare owners
  current := construct_current combiner compare owners
  walking := construct_walking combiner compare compare owners
  todo client b todo locked taken := by cases taken
  present gone := by cases gone
  sound := rfl

/-- Erasing under the key that the body has now is erasing under its own key. -/
theorem Current.erases (current : w.Current compare) (order : StrictWeak compare)
    {impl : SignalImpl} (present : w.heap.impl = some impl) {it : Iterator} {b : BodyId}
    (found : (w.heap.connectionBodies impl).list.value? it = some b) (grabTracked : Bool) :
    (w.heap.connectionBodies impl).erase
      ((w.checkExpired grabTracked b).bodies b).groupKey it ≠ none := by
  have key : ((w.checkExpired grabTracked b).bodies b).groupKey = w.keyOf b :=
    ((checkExpired_ages grabTracked b).bodies b).groupKey
  obtain ⟨list, erased, _⟩ := (current.consistent impl present).erase order found
  rw [key, erased]
  exact fun impossible => by cases impossible

/-- Nothing can go wrong in an orderly state. -/
theorem Orderly.no_cause (orderly : w.Orderly compare) (order : StrictWeak compare) {f : Fault} :
    ¬ Cause w a f := by
  intro cause
  have positioned := orderly.guarding.isolated.positioned
  cases cause with
  | sweepDestroyed it i count grabTracked after critical gone => exact orderly.present gone
  | sweepDangling it i count grabTracked after impl critical present inside dangling =>
      rcases orderly.current.running it i count grabTracked after critical impl present with
        atEnd | ⟨b, found⟩
      · exact inside atEnd
      · rw [dangling] at found
        cases found
  | eraseAssertion it i count grabTracked after impl b critical present found failed =>
      exact orderly.current.erases order present found grabTracked failed
  | iterDangling i inv found phase inside dangling =>
      exact absurd dangling (positioned.iter_here found phase inside)
  | callableDangling i inv found phase inside dangling =>
      exact absurd dangling (positioned.callable_here found (.inl phase) inside)
  | released i inv b found phase inside here gone =>
      exact orderly.guarding.isolated.not_released (.released i inv b found phase inside here gone)
  | expiredSignal i inv b slot weakPimpl found phase inside here held target gone =>
      exact orderly.guarding.not_expired
        (.expiredSignal i inv b slot weakPimpl found phase inside here held target gone)
  | janitorDestroyed i inv found phase many gone => exact orderly.present gone
  | walkDangling t tr found progress inside dangling =>
      obtain ⟨s, state⟩ := Option.ne_none_iff_exists'.mp progress
      obtain ⟨before, rest, after, walked⟩ :=
        orderly.walking.underway tr (List.mem_of_getElem? found) s state
      obtain ⟨node, later, _, here, _⟩ := walked.here state inside
      rw [dangling] at here
      cases here
  | walkReleased t b connected gone =>
      exact orderly.guarding.isolated.not_released (.walkReleased t b connected gone)

theorem Orderly.step (orderly : w.Orderly compare) (order : StrictWeak compare)
    (undisturbed : Undisturbed w a) (stepped : w.step a = some w') : w'.Orderly compare := by
  obtain ⟨sound, effect⟩ := step_effect stepped
  have isolated := orderly.guarding.isolated
  exact {
    guarding := orderly.guarding.step undisturbed.alone stepped
    apart := orderly.apart.step isolated.sharing undisturbed.unread effect.change
    current := orderly.current.step order isolated.listed effect
    walking := orderly.walking.step order orderly.current isolated orderly.apart effect
    todo := orderly.todo.step effect
    present := effect.change.heap.present undisturbed.1 orderly.present
    sound := by
      cases raised : w'.fault with
      | none => rfl
      | some f =>
          exact absurd (isolated.counted.cause sound effect raised) (orderly.no_cause order) }

theorem Orderly.run {final : World σ} {actions : List (Action σ)} (orderly : w.Orderly compare)
    (order : StrictWeak compare) (guarded : Runs.Guarded World.step Undisturbed w actions)
    (ran : Runs.run World.step w actions = some final) : final.Orderly compare :=
  Runs.run_invariant (fun _ _ _ before undisturbed stepped => before.step order undisturbed stepped)
    orderly guarded ran

end World

end Signals2
