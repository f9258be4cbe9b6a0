/-
Isolation of invocations.  An invocation in progress keeps the slot list it started
with, in every run in which `set_combiner` does not meet a list that two invocation
states share.  It can meet one: a run at the end shows what happens then.
-/

import Signals2.Positions
import Signals2.SlotRefcounts
import Signals2.BodyHistory

namespace Signals2

open LinkedLists

variable {σ : SignalTemplate}

namespace World

variable {w w' : World σ} {a : Action σ}

/-- What every run keeps that calls `set_combiner` only on an unread list. -/
structure Isolated (w : World σ) : Prop where
  sharing : w.Sharing
  apart : w.ListsApart .invocation
  positioned : w.Positioned
  counted : w.Counted
  listed : ∀ b, Listed w.heap b → b < w.nextBody

theorem construct_isolated (combiner : σ.Combiner)
    (defaultCompare groupCompare : σ.Group → σ.Group → Bool) (owners : ObjectId → Nat) :
    (World.construct combiner defaultCompare groupCompare owners).Isolated where
  sharing := construct_sharing combiner defaultCompare groupCompare owners
  apart := construct_listsApart combiner defaultCompare groupCompare owners
  positioned := construct_positioned combiner defaultCompare groupCompare owners
  counted := construct_counted combiner defaultCompare groupCompare owners
  listed b listed := by
    obtain ⟨l, member⟩ := listed
    cases member

theorem Isolated.kept (isolated : w.Isolated) (effect : Effect w a w') : SnapshotsKept w w' :=
  fun _ member => (isolated.apart.kept isolated.sharing effect.change member).2

theorem Isolated.step (isolated : w.Isolated) (unread : ListUnread .invocation w a)
    (stepped : w.step a = some w') : w'.Isolated := by
  obtain ⟨sound, effect⟩ := step_effect stepped
  exact {
    sharing := isolated.sharing.step effect.change
    apart := isolated.apart.step isolated.sharing unread effect.change
    positioned := isolated.positioned.step (isolated.kept effect) effect
    counted := isolated.counted.step effect
    listed := effect.listed_below isolated.listed }

/-- Evaluates whether `set_combiner` meets a list that an invocation reads. -/
def listUnread (w : World σ) : Action σ → Bool
  | .setCombiner _ =>
      w.shared.all fun s =>
        (w.readers .invocation).all fun reader =>
          reader.all fun r =>
            decide ((w.heap.states r).connectionBodies ≠ (w.heap.states s).connectionBodies)
  | _ => true

theorem unread_of_listUnread (unread : w.listUnread a = true) : ListUnread .invocation w a := by
  rintro combiner rfl s current r member
  have all : ∀ reader ∈ w.readers .invocation, reader.all (fun r =>
      decide ((w.heap.states r).connectionBodies ≠ (w.heap.states s).connectionBodies)) := by
    simpa [listUnread, current] using unread
  simpa using all (some r) member

/-! ### The slot list -/

/-- Between two moments an invocation in progress has kept its list object and the
nodes in it.  Its iterators refer to nodes of that list, and none of them to a
connection that is younger than the first moment. -/
def ListIsolated (w w' : World σ) (i : InvocationId) : Prop :=
  ∀ inv inv' s, w.invocations[i]? = some inv → inv.localState = some s →
    w'.invocations[i]? = some inv' → inv'.localState ≠ none →
      inv'.localState = some s ∧
      (w'.heap.states s).connectionBodies = (w.heap.states s).connectionBodies ∧
      w'.listOf s = w.listOf s ∧
      (∀ it b, w'.bodyAt inv'.localState it = some b → b < w.nextBody) ∧
      (Working inv' → inv'.iter.node ≠ none →
        ∃ b, w'.bodyAt inv'.localState inv'.iter = some b) ∧
      (Working inv' → inv'.callableIter.node ≠ none →
        ∃ b, w'.bodyAt inv'.localState inv'.callableIter = some b)

theorem Isolated.run {final : World σ} {actions : List (Action σ)} (isolated : w.Isolated)
    (guarded : Runs.Guarded World.step (ListUnread .invocation) w actions)
    (ran : Runs.run World.step w actions = some final) :
    final.Isolated ∧ Kept .invocation listView w final := by
  have keeps : ∀ (s : World σ) (a : Action σ) (next : World σ), Isolated s →
      ListUnread .invocation s a → s.step a = some next → Isolated next :=
    fun _ _ _ before unread stepped => before.step unread stepped
  refine ⟨Runs.run_invariant keeps isolated guarded ran, ?_⟩
  refine Runs.run_relation (Kept.refl .invocation listView) (fun _ _ _ => Kept.trans) keeps ?_
    isolated guarded ran
  intro s a next before unread stepped
  exact before.apart.kept_step before.sharing (step_effect stepped).2.change

theorem invocation_list_isolated {combiner : σ.Combiner}
    {defaultCompare groupCompare : σ.Group → σ.Group → Bool} {owners : ObjectId → Nat}
    {earlier later : List (Action σ)}
    (guarded : Runs.Guarded World.step (ListUnread .invocation)
      (World.construct combiner defaultCompare groupCompare owners) (earlier ++ later))
    (before : Runs.run World.step (World.construct combiner defaultCompare groupCompare owners)
      earlier = some w)
    (ran : Runs.run World.step w later = some w') (i : InvocationId) : ListIsolated w w' i := by
  obtain ⟨guardedEarlier, guardedLater⟩ := (Runs.guarded_append before).mp guarded
  have start := (construct_isolated combiner defaultCompare groupCompare owners).run
    guardedEarlier before
  obtain ⟨isolated, kept⟩ := start.1.run guardedLater ran
  intro inv inv' s found state found' progress
  obtain ⟨still, view⟩ := kept.invocation found state found' progress
  have list : w'.listOf s = w.listOf s := congrArg Prod.snd view
  have placed := isolated.positioned.placed inv' (List.mem_of_getElem? found')
  refine ⟨still, congrArg Prod.fst view, list, ?_, placed.iter, ?_⟩
  · intro it b here
    rw [still] at here
    have inside : b ∈ (w'.listOf s).list.values := value?_mem here
    rw [list] at inside
    exact start.1.listed b ⟨_, inside⟩
  · intro working inside
    obtain ⟨b, here, _⟩ := placed.callable working inside
    exact ⟨b, here⟩

end World

/-! ### What goes wrong -/

/-- A first slot is being called. -/
def callFirstSlot : List (Action natSignal) :=
  [connectBack 10, .section, .invoke, .section, .section, .lockNext 0, .section, .dereference 0]

/-- The running slot connects another slot, which copies the list, and sets a combiner. -/
def connectAndSetCombiner : List (Action natSignal) :=
  [connectBack 11, .section, .section, .setCombiner 1]

/-- The new state has a list of its own when the combiner is set, so nobody reads it. -/
theorem callFirstSlot_list_isolated :
    ∃ w w' : World natSignal, Runs.run World.step natStart callFirstSlot = some w ∧
      Runs.run World.step w connectAndSetCombiner = some w' ∧ World.ListIsolated w w' 0 := by
  have ends : (Runs.run World.step natStart (callFirstSlot ++ connectAndSetCombiner)).isSome := by
    decide +kernel
  have unread : Runs.checked World.step World.listUnread natStart
      (callFirstSlot ++ connectAndSetCombiner) = true := by
    decide +kernel
  obtain ⟨w', ran⟩ := Option.isSome_iff_exists.mp ends
  rw [Runs.run_append] at ran
  obtain ⟨w, before, after⟩ := Option.bind_eq_some_iff.mp ran
  refine ⟨w, w', before, after, World.invocation_list_isolated ?_ before after 0⟩
  exact Runs.Guarded.of_checked (fun _ _ => World.unread_of_listUnread) unread

/-- The running slot sets a combiner, connects another slot and returns; the
invocation goes on to its next call. -/
def setCombinerAndConnect : List (Action natSignal) :=
  [.setCombiner 1, connectBack 11, .section, .section, .slotReturns 0 5, .increment 0,
    .lockNext 0, .section, .dereference 0]

/-- The new state shares the list with the old one and is unique, so the connect
edits the list in place.  The invocation ends up in a slot that did not exist when
it started. -/
theorem set_combiner_edits_list :
    ∃ w w' : World natSignal, Runs.run World.step natStart callFirstSlot = some w ∧
      Runs.run World.step w setCombinerAndConnect = some w' ∧ w.nextBody = 1 ∧
      w'.invocations.map Invocation.phase = [.running] ∧
      w'.invocations.map (fun inv => w'.bodyAt inv.localState inv.iter) = [some 1] ∧
      ¬ World.ListIsolated w w' 0 := by
  refine ⟨_, _, rfl, rfl, rfl, rfl, rfl, ?_⟩
  intro isolated
  obtain ⟨_, _, _, young, _⟩ := isolated _ _ 0 rfl rfl rfl (fun gone => by cases gone)
  exact absurd (young { owner := 0, node := some 1 } 1 rfl) (by decide)

end Signals2
