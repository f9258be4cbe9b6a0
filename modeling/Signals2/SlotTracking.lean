/-
`slot::track` on a family of slots, with their tracked objects in vectors as the code
has them.  The overload for another slot walks the tracked objects of its argument
while it appends to its own; a slot may be given to itself.
-/

import Mathlib.Logic.Function.Iterate
import Signals2.Library.GrowingVectors
import Signals2.ConnectionBody

namespace Signals2

open GrowingVectors

variable {Name : Type} [DecidableEq Name]

/-- `tracked_container_type`. -/
abbrev TrackedContainer := GrowingVector VoidWeakPtr

/-- A call of `track` with a slot: before a test of its loop, returned, or gone on with
an iterator that is lost. -/
inductive TrackLoop (Name : Type) where
  | looping (slots : Name → TrackedContainer) (it : VectorIterator)
  | returned (slots : Name → TrackedContainer)
  | undefined

/-- One round of the loop of `s.track(t)`. -/
def trackRound (growth : Growth) (s t : Name) : TrackLoop Name → TrackLoop Name
  | .looping slots it =>
      if it.generation ≠ (slots t).generation then .undefined
      else if it = (slots t).past then .returned slots
      else
        match (slots t).value? it with
        | none => .undefined
        | some tracked =>
            .looping (Function.update slots s ((slots s).pushBack growth tracked)) it.next
  | .returned slots => .returned slots
  | .undefined => .undefined

/-- `s.track(t)` after so many rounds. -/
def trackSlot (growth : Growth) (slots : Name → TrackedContainer) (s t : Name)
    (rounds : Nat) : TrackLoop Name :=
  (trackRound growth s t)^[rounds] (.looping slots (slots t).begin)

/-- A call of `track`, `track_foreign` included; all but one append one object. -/
inductive TrackCall (Name : Type) where
  | object (s : Name) (tracked : VoidWeakPtr)
  | slot (s t : Name)

inductive Returns (growth : Growth) (slots : Name → TrackedContainer) :
    TrackCall Name → (Name → TrackedContainer) → Prop
  | object (s : Name) (tracked : VoidWeakPtr) :
      Returns growth slots (.object s tracked)
        (Function.update slots s ((slots s).pushBack growth tracked))
  | slot (s t : Name) (rounds : Nat) (slots' : Name → TrackedContainer)
      (ended : trackSlot growth slots s t rounds = .returned slots') :
      Returns growth slots (.slot s t) slots'

inductive AllReturn (growth : Growth) :
    (Name → TrackedContainer) → List (TrackCall Name) → (Name → TrackedContainer) → Prop
  | nil (slots : Name → TrackedContainer) : AllReturn growth slots [] slots
  | cons {slots middle slots' : Name → TrackedContainer} {call : TrackCall Name}
      {rest : List (TrackCall Name)} (returns : Returns growth slots call middle)
      (later : AllReturn growth middle rest slots') :
      AllReturn growth slots (call :: rest) slots'

/-! ### The lists -/

def trackedLists (slots : Name → TrackedContainer) (s : Name) : List VoidWeakPtr :=
  (slots s).elements

/-- What a call is for. -/
def TrackCall.append (lists : Name → List VoidWeakPtr) :
    TrackCall Name → Name → List VoidWeakPtr
  | .object s tracked => Function.update lists s (lists s ++ [tracked])
  | .slot s t => Function.update lists s (lists s ++ lists t)

/-- Only a slot that tracks nothing is given to itself. -/
def TrackCall.Apart (lists : Name → List VoidWeakPtr) : TrackCall Name → Prop
  | .object _ _ => True
  | .slot s t => s = t → lists t = []

def AllApart (lists : Name → List VoidWeakPtr) : List (TrackCall Name) → Prop
  | [] => True
  | call :: rest => call.Apart lists ∧ AllApart (call.append lists) rest

variable {growth : Growth} {slots slots' : Name → TrackedContainer} {s t : Name}

theorem trackedLists_push (slots : Name → TrackedContainer) (s : Name) (tracked : VoidWeakPtr) :
    trackedLists (Function.update slots s ((slots s).pushBack growth tracked)) =
      Function.update (trackedLists slots) s (trackedLists slots s ++ [tracked]) := by
  funext name
  by_cases same : name = s
  · subst same
    simp [trackedLists]
  · simp [trackedLists, same]

/-! ### A slot and another one -/

/-- With `before` behind the iterator, the loop appends `rest` and returns. -/
theorem trackRound_apart (apart : s ≠ t) {before rest : List VoidWeakPtr}
    (split : (slots t).elements = before ++ rest) :
    ∃ slots', (trackRound growth s t)^[rest.length + 1]
        (.looping slots ((slots t).iteratorAt before.length)) = .returned slots' ∧
      (slots' s).elements = (slots s).elements ++ rest ∧
      ∀ other, other ≠ s → slots' other = slots other := by
  induction rest generalizing slots before with
  | nil =>
      have atEnd : (slots t).iteratorAt before.length = (slots t).past := by
        rw [GrowingVector.iteratorAt_past, split, List.append_nil]
      refine ⟨slots, ?_, ?_, fun _ _ => rfl⟩
      · simp [trackRound, atEnd]
      · rw [List.append_nil]
  | cons tracked rest ih =>
      have kept : Function.update slots s ((slots s).pushBack growth tracked) t = slots t :=
        Function.update_of_ne (Ne.symm apart) _ _
      have further : (Function.update slots s ((slots s).pushBack growth tracked) t).elements =
          (before ++ [tracked]) ++ rest := by
        rw [kept, split, List.append_assoc]
        rfl
      obtain ⟨slots', ended, appended, others⟩ := ih further
      refine ⟨slots', ?_, ?_, ?_⟩
      · have inside : (slots t).iteratorAt before.length ≠ (slots t).past := by
          rw [ne_eq, GrowingVector.iteratorAt_past, split, List.length_append, List.length_cons]
          omega
        have here : (slots t).value? ((slots t).iteratorAt before.length) = some tracked := by
          simp [GrowingVector.value?_iteratorAt, split]
        rw [List.length_cons, Function.iterate_succ_apply]
        rw [kept, List.length_append, List.length_singleton] at ended
        simpa only [trackRound, GrowingVector.iteratorAt_generation, ne_eq, not_true_eq_false,
          if_false, inside, here, GrowingVector.iteratorAt_next] using ended
      · rw [appended, Function.update_self, GrowingVector.pushBack_elements, List.append_assoc]
        rfl
      · intro other different
        rw [others other different, Function.update_of_ne different]

/-! ### A slot and itself -/

/-- From inside its own list a slot never comes to the end of it. -/
theorem trackRound_self {it : VectorIterator} (current : it.generation = (slots s).generation)
    (inside : it.position < (slots s).elements.length) :
    ∃ rounds, (trackRound growth s s)^[rounds] (.looping slots it) = .undefined := by
  generalize free : (slots s).capacity - (slots s).elements.length = room
  induction room generalizing slots it with
  | zero =>
      obtain ⟨tracked, here⟩ : ∃ tracked, (slots s).elements[it.position]? = some tracked :=
        ⟨_, List.getElem?_eq_getElem inside⟩
      have full : ¬ (slots s).elements.length < (slots s).capacity := by omega
      have further : it ≠ (slots s).past := by
        intro same
        rw [same] at inside
        exact Nat.lt_irrefl _ inside
      have lost : (slots s).generation ≠ ((slots s).pushBack growth tracked).generation := by
        rw [GrowingVector.pushBack_full full]
        omega
      refine ⟨2, ?_⟩
      simp [trackRound, GrowingVector.value?, current, further, here, VectorIterator.next, lost]
  | succ room ih =>
      obtain ⟨tracked, here⟩ : ∃ tracked, (slots s).elements[it.position]? = some tracked :=
        ⟨_, List.getElem?_eq_getElem inside⟩
      have fits : (slots s).elements.length < (slots s).capacity := by omega
      have further : it ≠ (slots s).past := by
        intro same
        rw [same] at inside
        exact Nat.lt_irrefl _ inside
      obtain ⟨sameGeneration, sameCapacity⟩ :
          ((slots s).pushBack growth tracked).generation = (slots s).generation ∧
            ((slots s).pushBack growth tracked).capacity = (slots s).capacity :=
        GrowingVector.pushBack_room fits
      let pushed := Function.update slots s ((slots s).pushBack growth tracked)
      have grown : pushed s = (slots s).pushBack growth tracked := Function.update_self _ _ _
      have still : it.next.generation = (pushed s).generation := by
        rw [grown, sameGeneration]
        exact current
      have later : it.next.position < (pushed s).elements.length := by
        rw [grown, GrowingVector.pushBack_elements, List.length_append]
        exact Nat.succ_lt_succ inside
      have less : (pushed s).capacity - (pushed s).elements.length = room := by
        rw [grown, GrowingVector.pushBack_elements, List.length_append, sameCapacity,
          List.length_singleton]
        omega
      obtain ⟨rounds, ended⟩ := ih still later less
      refine ⟨rounds + 1, ?_⟩
      rw [Function.iterate_succ_apply]
      simpa [trackRound, GrowingVector.value?, current, further, here] using ended

theorem trackRound_undefined (rounds : Nat) :
    (trackRound growth s t)^[rounds] .undefined = .undefined :=
  Function.iterate_fixed rfl rounds

theorem trackRound_returned (rounds : Nat) :
    (trackRound growth s t)^[rounds] (.returned slots) = .returned slots :=
  Function.iterate_fixed rfl rounds

/-- What has returned does not go wrong later. -/
theorem not_undefined_of_returned {start : TrackLoop Name} {early late : Nat}
    (ended : (trackRound growth s t)^[early] start = .returned slots)
    (wrong : (trackRound growth s t)^[late] start = .undefined) : False := by
  have first : (trackRound growth s t)^[late + early] start = .returned slots := by
    rw [Function.iterate_add_apply, ended, trackRound_returned]
  have second : (trackRound growth s t)^[early + late] start = .undefined := by
    rw [Function.iterate_add_apply, wrong, trackRound_undefined]
  rw [Nat.add_comm, second] at first
  cases first

theorem returned_unique {start : TrackLoop Name} {first second : Nat}
    (ended : (trackRound growth s t)^[first] start = .returned slots)
    (again : (trackRound growth s t)^[second] start = .returned slots') : slots' = slots := by
  have one : (trackRound growth s t)^[second + first] start = .returned slots := by
    rw [Function.iterate_add_apply, ended, trackRound_returned]
  have two : (trackRound growth s t)^[first + second] start = .returned slots' := by
    rw [Function.iterate_add_apply, again, trackRound_returned]
  rw [Nat.add_comm, two] at one
  exact TrackLoop.returned.inj one

/-! ### One call -/

theorem trackedLists_apart {before : Name → TrackedContainer} {rest : List VoidWeakPtr}
    (appended : (slots' s).elements = (before s).elements ++ rest)
    (others : ∀ other, other ≠ s → slots' other = before other) :
    trackedLists slots' = Function.update (trackedLists before) s (trackedLists before s ++ rest) := by
  funext name
  by_cases same : name = s
  · subst same
    rw [Function.update_self]
    exact appended
  · rw [Function.update_of_ne same]
    exact congrArg GrowingVector.elements (others name same)

/-- A slot that is given another one, or tracks nothing and is given itself. -/
theorem trackSlot_returns (growth : Growth) (slots : Name → TrackedContainer) (s t : Name)
    (apart : (TrackCall.slot s t).Apart (trackedLists slots)) :
    ∃ slots', Returns growth slots (.slot s t) slots' ∧
      trackedLists slots' = (TrackCall.slot s t).append (trackedLists slots) := by
  by_cases same : s = t
  · subst same
    have nothing : (slots s).elements = [] := apart rfl
    refine ⟨slots, .slot s s 1 slots ?_, ?_⟩
    · have atEnd : (slots s).begin = (slots s).past := by
        simp [GrowingVector.begin, GrowingVector.past, nothing]
      simp [trackSlot, trackRound, atEnd]
    · have empty : trackedLists slots s = [] := nothing
      simp [TrackCall.append, empty]
  · have split : (slots t).elements = [] ++ (slots t).elements := rfl
    obtain ⟨slots', ended, appended, others⟩ := @trackRound_apart _ _ growth slots s t same _ _ split
    exact ⟨slots', .slot s t _ slots' ended, trackedLists_apart appended others⟩

theorem Returns.apart {call : TrackCall Name} (returns : Returns growth slots call slots') :
    call.Apart (trackedLists slots) := by
  cases returns with
  | object s tracked => trivial
  | slot s t rounds slots' ended =>
      intro same
      subst same
      by_contra some
      have current : (slots s).begin.generation = (slots s).generation := rfl
      obtain ⟨later, wrong⟩ : ∃ later,
          (trackRound growth s s)^[later] (.looping slots (slots s).begin) = .undefined :=
        trackRound_self current (List.length_pos_iff.mpr some)
      exact not_undefined_of_returned ended wrong

theorem Returns.tracked {call : TrackCall Name} (returns : Returns growth slots call slots') :
    trackedLists slots' = call.append (trackedLists slots) := by
  have apart := returns.apart
  cases returns with
  | object s tracked => exact trackedLists_push slots s tracked
  | slot s t rounds slots' ended =>
      obtain ⟨other, returned, appended⟩ := trackSlot_returns growth slots s t apart
      cases returned with
      | slot _ _ rounds' other ended' =>
          rw [← returned_unique ended ended']
          exact appended

/-- The bound slot of `connect_extended` starts with no tracked objects and takes over
those of the slot it replaces. -/
theorem replaceSlotFunction_tracked {σ : SignalTemplate} (extSlot : Slot σ) {bound slotIn : Name}
    (apart : bound ≠ slotIn) (holds : (slots slotIn).elements = extSlot.trackedObjects) :
    ∃ slots', Returns growth (Function.update slots bound (.ofList [])) (.slot bound slotIn) slots' ∧
      (slots' bound).elements = extSlot.replaceSlotFunction.trackedObjects := by
  obtain ⟨slots', returns, appended⟩ := trackSlot_returns growth
    (Function.update slots bound (.ofList [])) bound slotIn fun same => absurd same apart
  refine ⟨slots', returns, ?_⟩
  have here := congrFun appended bound
  simp only [TrackCall.append, Function.update_self] at here
  simpa [trackedLists, GrowingVector.ofList, Ne.symm apart, holds, Slot.replaceSlotFunction]
    using here

/-! ### Any sequence of calls -/

/-- All calls return, with the lists that they are for, just when no slot with tracked
objects is given to itself. -/
theorem slot_track_runs (growth : Growth) (slots : Name → TrackedContainer)
    (calls : List (TrackCall Name)) :
    (∃ slots', AllReturn growth slots calls slots' ∧
      trackedLists slots' = calls.foldl TrackCall.append (trackedLists slots)) ↔
        AllApart (trackedLists slots) calls := by
  induction calls generalizing slots with
  | nil =>
      constructor
      · intro _
        trivial
      · intro _
        exact ⟨slots, .nil slots, rfl⟩
  | cons call rest ih =>
      constructor
      · rintro ⟨slots', all, appended⟩
        cases all with
        | cons returns later =>
            rename_i middle
            have tracked := returns.tracked
            rw [List.foldl_cons, ← tracked] at appended
            refine ⟨returns.apart, ?_⟩
            rw [← tracked]
            exact (ih middle).mp ⟨slots', later, appended⟩
      · rintro ⟨apart, onwards⟩
        have first : ∃ middle, Returns growth slots call middle := by
          cases call with
          | object s tracked => exact ⟨_, .object s tracked⟩
          | slot s t =>
              obtain ⟨middle, returns, _⟩ := trackSlot_returns growth slots s t apart
              exact ⟨middle, returns⟩
        obtain ⟨middle, returns⟩ := first
        have tracked := returns.tracked
        rw [← tracked] at onwards
        obtain ⟨slots', later, appended⟩ := (ih middle).mpr onwards
        refine ⟨slots', .cons returns later, ?_⟩
        rw [List.foldl_cons, ← tracked]
        exact appended

/-! ### A slot that is given to itself -/

def doubling : Growth :=
  { next := fun size => 2 * size + 1
    grows := fun size => by omega }

/-- One slot, with one tracked object. -/
def oneTracked : Unit → TrackedContainer := fun _ => .ofList [.boost 0]

theorem track_self_undefined :
    trackSlot doubling oneTracked () () 2 = .undefined ∧
      ¬ ∃ slots', AllReturn doubling oneTracked [.slot () ()] slots' ∧
        trackedLists slots' = (TrackCall.slot () ()).append (trackedLists oneTracked) := by
  constructor
  · rfl
  · rintro ⟨slots', all, _⟩
    cases all with
    | cons returns later =>
        have nothing := returns.apart rfl
        cases nothing

end Signals2
