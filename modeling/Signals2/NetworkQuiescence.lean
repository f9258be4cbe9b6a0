/-
Networks of signals come to rest.  A caller waits for an invocation that began after it, so
no network is ever stuck, however its signals are connected.  Where connections lead
downwards only, nothing that has been begun goes on for ever.
-/

import Signals2.ChainedCalls
import Signals2.Quiescence

namespace Signals2

open OrderedInsertion IndexedLists

variable {σ : SignalTemplate}

/-- A slot function throws. -/
def NetworkAction.throws : NetworkAction σ → Bool
  | .proceed _ (.slotThrows _ _) => true
  | _ => false

namespace SignalNetwork

variable {n n' : SignalNetwork σ} {a : NetworkAction σ} {x y : ImplId} {w w' : World σ}

/-! ### Rest -/

/-- The action begins nothing. -/
def carriesOn (n : SignalNetwork σ) : NetworkAction σ → Bool
  | .proceed x a => n.impls[x]?.any fun w => w.carriesOn a
  | .weakInvoke _ | .weakReturn _ => true
  | _ => false

/-- Every signal is at rest, no call is in progress, and only signal objects and the owners
outside keep anything. -/
structure AtRest (n : SignalNetwork σ) : Prop where
  settled : ∀ w ∈ n.impls, w.AtRest
  returned : ∀ entry ∈ n.calls, entry = none
  kept : ∀ o, n.owned o = true ↔
    0 < n.owners o ∨ ∃ this x, n.pimpl this = some (some x) ∧ pimplObject x = o

theorem not_begun {a : Action σ} (carries : w.carriesOn a = true) :
    a.ofSignal = false ∧ a.ofOwner = false := by
  cases a with
  | connect arguments => cases carries
  | setCombiner combiner => cases carries
  | invoke => cases carries
  | traverse kind => cases carries
  | destroy => cases carries
  | acquire o => cases carries
  | drop o => cases carries
  | _ => exact ⟨rfl, rfl⟩

theorem not_awaiting {a : Action σ} (inside : a.leavesSlot = false) : n.awaiting x a = false := by
  cases a with
  | slotReturns i result => cases inside
  | slotThrows i e => cases inside
  | _ => rfl

theorem proceed_enabled {b : Action σ} (found : n.impls[x]? = some w)
    (carries : w.carriesOn b = true) (back : n.awaiting x b = false)
    (enabled : (w.step b).isSome = true) : (n.proceed x b).isSome = true := by
  obtain ⟨notSignal, notOwner⟩ := not_begun carries
  simp only [proceed, notSignal, notOwner, back, Bool.false_eq_true, or_self, if_false, stepImpl,
    found, Option.isSome_map, enabled]

theorem callers_some {c : CallId} {i : InvocationId} :
    n.callers[c]? = some (some (x, i)) ↔
      ∃ call, n.calls[c]? = some (some call) ∧ call.caller = x ∧ call.invocation = i := by
  rw [callers, List.getElem?_map]
  constructor
  · intro calling
    obtain ⟨entry, found, same⟩ := Option.map_eq_some_iff.mp calling
    obtain ⟨call, rfl, same⟩ := Option.map_eq_some_iff.mp same
    cases same
    exact ⟨call, found, rfl, rfl⟩
  · rintro ⟨call, found, rfl, rfl⟩
    rw [found]
    rfl

/-- Nothing can be carried on with. -/
def Stuck (n : SignalNetwork σ) : Prop :=
  ∀ a, n.carriesOn a = true → n.step a = none

theorem Stuck.act (stuck : n.Stuck) (sound : n.nullPimpl = false) (carries : n.carriesOn a = true)
    (enabled : (n.act a).isSome = true) : False := by
  have none_ := stuck a carries
  simp only [SignalNetwork.step, sound, Bool.false_eq_true, if_false, Option.map_eq_none_iff]
    at none_
  rw [none_] at enabled
  cases enabled

/-- In a network that is stuck, a slot function that runs is calling another signal. -/
theorem Stuck.signal (stuck : n.Stuck) (sound : n.Sound) (found : n.impls[x]? = some w) :
    w.critical = none ∧ w.trash = [] ∧ (∀ tr ∈ w.traversals, tr.localState = none) ∧
      ∀ (i : InvocationId) (inv : Invocation σ), w.invocations[i]? = some inv →
        inv.phase = .done ∨ ∃ c : CallId, n.callers[c]? = some (some (x, i)) := by
  obtain ⟨compare, order, steady⟩ := (sound.came x w found).steady
  have disabled : ∀ b, w.carriesOn b = true → n.awaiting x b = false → w.step b = none := by
    intro b carries back
    by_contra enabled
    apply stuck.act (a := .proceed x b) sound.noNull
    · simpa [carriesOn, found] using carries
    · exact proceed_enabled found carries back (Option.isSome_iff_ne_none.mpr enabled)
  obtain ⟨free, released, walked, idle⟩ :=
    steady.only_running fun b carries inside => disabled b carries (not_awaiting inside)
  refine ⟨free, released, walked, ?_⟩
  intro i inv there
  by_cases running : inv.phase = .running
  · right
    have waits : n.awaiting x (.slotThrows i false) = true := by
      by_contra back
      have thrown := disabled (.slotThrows i false) rfl (by simpa using back)
      simp [World.step, steady.sound, World.slotThrows, there, running] at thrown
    obtain ⟨call, member, same⟩ := List.any_eq_true.mp waits
    obtain ⟨sameCaller, sameInvocation⟩ := Bool.and_eq_true_iff.mp same
    obtain ⟨c, at_⟩ := List.mem_iff_getElem?.mp (List.reduceOption_mem_iff.mp member)
    exact ⟨c, callers_some.mpr ⟨call, at_, beq_iff_eq.mp sameCaller, beq_iff_eq.mp sameInvocation⟩⟩
  · exact .inl (idle inv (List.mem_of_getElem? there) running)

/-! ### Callers wait for later calls -/

/-- The slot functions of an invocation make their calls after the call that the invocation
belongs to. -/
def Nested (n : SignalNetwork σ) : Prop :=
  ∀ (c d : CallId) x i, n.lodging c = some (x, some i) → n.callers[d]? = some (some (x, i)) →
    c < d

theorem lodging_inside {c : CallId} {place : ImplId × Option InvocationId}
    (placed : n.lodging c = some place) : c < n.callers.length := by
  obtain ⟨call, there, _⟩ := Option.bind_eq_some_iff.mp placed
  rw [callers, List.length_map]
  exact (List.getElem?_eq_some_iff.mp (Option.join_eq_some_iff.mp there)).1

theorem Lodges.inside {b : Action σ} {c : CallId} {place : ImplId × Option InvocationId}
    (lodges : Lodges n a x w w' c place) (taken : n.Takes a x b) : c < n.callers.length := by
  have first : a = .weakInvoke c → c < n.callers.length := by
    rintro rfl
    cases taken with
    | weakInvoke _ call found promoted =>
        rw [callers, List.length_map]
        exact (List.getElem?_eq_some_iff.mp found).1
  cases lodges with
  | stays y place before still => exact lodging_inside before
  | sets now still => exact first now
  | arrives before more =>
      rcases before with onTheWay | now
      · exact lodging_inside onTheWay
      · exact first now

theorem Nested.step (nested : n.Nested) (waiting : n.Waiting) (acted : Acted n a n') :
    n'.collect.Nested := by
  have kept : n'.Nested → n'.collect.Nested := fun before => before
  apply kept
  cases acted with
  | takes x b w w' taken found stepped =>
      intro c d y i placed calling
      have lodges := taken.lodges placed
      rw [takes_callers] at calling
      by_cases earlier : d < n.callers.length
      · rw [List.getElem?_append_left earlier] at calling
        cases lodges with
        | stays _ _ before still => exact nested c d y i before calling
        | arrives before more =>
            obtain ⟨u, there, running⟩ := waiting.running x _ (List.mem_of_getElem? calling)
            cases found.symm.trans there
            obtain ⟨inv, inside, _⟩ := Option.map_eq_some_iff.mp running
            exact absurd (List.getElem?_eq_some_iff.mp inside).1 (Nat.lt_irrefl _)
      · exact Nat.lt_of_lt_of_le (lodges.inside taken) (Nat.le_of_not_lt earlier)
  | returns c call i w found stage there done =>
      intro e d y j placed calling
      have before := returns_lodging found placed
      rw [returns_callers] at calling
      by_cases same : c = d
      · subst same
        have inside : c < n.callers.length := by
          rw [callers, List.length_map]
          exact (List.getElem?_eq_some_iff.mp found).1
        rw [List.getElem?_set_self inside] at calling
        cases calling
      · rw [List.getElem?_set_ne same] at calling
        exact nested e d y j before calling
  | _ => exact nested

/-- In a network that is stuck no call is in progress: it would wait for a later one. -/
theorem Stuck.returned (stuck : n.Stuck) (chained : n.Chained) (nested : n.Nested) (c : CallId) :
    n.calls[c]?.join = none := by
  have sound := chained.sound
  induction left : n.calls.length - c using Nat.strongRecOn generalizing c with
  | ind k ih =>
      by_contra begun
      obtain ⟨call, there⟩ := Option.ne_none_iff_exists'.mp begun
      have found := Option.join_eq_some_iff.mp there
      have member := List.mem_of_getElem? found
      obtain ⟨w, target⟩ : ∃ w, n.impls[call.sharedPimpl]? = some w :=
        ⟨_, List.getElem?_eq_getElem (sound.known.calls call member)⟩
      obtain ⟨free, _, _, idle⟩ := stuck.signal sound target
      cases stage : call.stage with
      | promoted =>
          apply stuck.act (a := .weakInvoke c) sound.noNull rfl
          obtain ⟨compare, order, steady⟩ := (sound.came _ _ target).steady
          obtain ⟨impl, present⟩ := Option.ne_none_iff_exists'.mp (sound.linked.kept member target)
          have locks : (w.step .invoke).isSome = true := by
            simp [World.step, steady.sound, World.invoke, World.lockImpl, free, present]
          simp only [SignalNetwork.act, SignalNetwork.weakInvoke, there, stage, if_true, stepImpl,
            setStage, target, Option.isSome_map, locks]
      | locking =>
          have placed : n.lodging c = some (call.sharedPimpl, none) := by
            simp only [lodging, there, Option.bind_some, WeakSignalCall.lodging, stage]
          obtain ⟨u, there', going⟩ := chained.lodged.housed c _ _ placed
          cases target.symm.trans there'
          rw [World.Houses, World.sweepFor_of_free free] at going
          cases going
      | invoked i =>
          have placed : n.lodging c = some (call.sharedPimpl, some i) := by
            simp only [lodging, there, Option.bind_some, WeakSignalCall.lodging, stage]
          obtain ⟨u, there', inside⟩ := chained.lodged.housed c _ _ placed
          cases target.symm.trans there'
          have invocation := List.getElem?_eq_getElem inside
          rcases idle i _ invocation with finished | ⟨d, calling⟩
          · apply stuck.act (a := .weakReturn c) sound.noNull rfl
            have done : (w.phaseOf i == some .done) = true := by
              simp [World.phaseOf, invocation, finished]
            simp only [SignalNetwork.act, SignalNetwork.weakReturn, there, stage, target,
              Option.any_some, done, if_true, Option.isSome_some]
          · have later := nested c d _ i placed calling
            obtain ⟨call', at_, _⟩ := callers_some.mp calling
            have inside' := (List.getElem?_eq_some_iff.mp at_).1
            have gone := ih (n.calls.length - d)
              (left ▸ Nat.sub_lt_sub_left (Nat.lt_trans later inside') later) d rfl
            rw [at_] at gone
            cases gone

theorem Stuck.atRest (stuck : n.Stuck) (chained : n.Chained) (nested : n.Nested) : n.AtRest := by
  have sound := chained.sound
  have returned : ∀ entry ∈ n.calls, entry = none := by
    intro entry member
    obtain ⟨c, found⟩ := List.mem_iff_getElem?.mp member
    have gone := stuck.returned chained nested c
    rwa [found, Option.join_some] at gone
  have idle : ∀ {x : ImplId} {w : World σ}, n.impls[x]? = some w →
      w.critical = none ∧ w.trash = [] ∧ (∀ tr ∈ w.traversals, tr.localState = none) ∧
        ∀ inv ∈ w.invocations, inv.phase = .done := by
    intro x w found
    obtain ⟨free, released, walked, waits⟩ := stuck.signal sound found
    refine ⟨free, released, walked, ?_⟩
    intro inv member
    obtain ⟨i, there⟩ := List.mem_iff_getElem?.mp member
    rcases waits i inv there with done | ⟨c, calling⟩
    · exact done
    · obtain ⟨call, at_, _⟩ := callers_some.mp calling
      cases returned _ (List.mem_of_getElem? at_)
  constructor
  · intro w member
    obtain ⟨x, found⟩ := List.mem_iff_getElem?.mp member
    obtain ⟨compare, order, steady⟩ := (sound.came x w found).steady
    obtain ⟨free, released, walked, done⟩ := idle found
    exact steady.atRest free done walked released
  · exact returned
  · intro o
    have alone : o ∈ n.referred ↔ ∃ this x, n.pimpl this = some (some x) ∧ pimplObject x = o := by
      rw [mem_referred]
      constructor
      · rintro (⟨x, pointed, same⟩ | ⟨call, member, _⟩ | ⟨w, member, held⟩)
        · obtain ⟨this, points⟩ := pointed_iff.mp pointed
          exact ⟨this, x, points, same⟩
        · cases returned _ member
        · exfalso
          obtain ⟨x, found⟩ := List.mem_iff_getElem?.mp member
          obtain ⟨compare, order, steady⟩ := (sound.came x w found).steady
          obtain ⟨free, _, _, done⟩ := idle found
          rcases World.mem_held.mp held with ⟨inv, inside, promoted⟩ | locked
          · rw [steady.emptied.pointers inv inside (done inv inside)] at promoted
            cases promoted
          · simp only [World.lockedObject, free] at locked
            cases locked
      · rintro ⟨this, x, points, same⟩
        exact .inl ⟨x, pointed_iff.mpr ⟨this, points⟩, same⟩
    rw [owned, Bool.or_eq_true, decide_eq_true_eq, List.contains_iff_mem, alone]

theorem AtRest.stuck (rest : n.AtRest) : n.Stuck := by
  intro a carries
  have gone : ∀ c : CallId, n.calls[c]?.join = none := by
    intro c
    cases found : n.calls[c]? with
    | none => rfl
    | some entry =>
        rw [rest.returned entry (List.mem_of_getElem? found)]
        rfl
  have none_ : n.act a = none := by
    cases a with
    | proceed x b =>
        obtain ⟨w, found, continues⟩ := (Option.any_eq_true _ _).mp carries
        have still := (rest.settled w (List.mem_of_getElem? found)).still continues
        simp only [SignalNetwork.act, SignalNetwork.proceed, stepImpl, found, still,
          Option.map_none, ite_self]
    | weakInvoke c => simp only [SignalNetwork.act, SignalNetwork.weakInvoke, gone]
    | weakReturn c => simp only [SignalNetwork.act, SignalNetwork.weakReturn, gone]
    | _ => cases carries
  unfold SignalNetwork.step
  split
  · rfl
  · rw [none_]
    rfl

/-- A network is never stuck before everything has come to its end, however its signals are
connected, to themselves or in a circle. -/
theorem networks_carry_on {owners : ObjectId → Nat} {actions : List (NetworkAction σ)}
    (guarded : Runs.Guarded SignalNetwork.step Careful (start owners) actions)
    (ran : Runs.run SignalNetwork.step (start owners) actions = some n) :
    n.AtRest ↔ ∀ a, n.carriesOn a = true → n.step a = none := by
  have keeps : ∀ (state : SignalNetwork σ) (a : NetworkAction σ) (next : SignalNetwork σ),
      state.Chained ∧ state.Nested → state.Careful a → state.step a = some next →
        next.Chained ∧ next.Nested := by
    intro state a next both careful stepped
    constructor
    · exact both.1.step careful stepped
    · obtain ⟨_, acted, taken, rfl⟩ := step_acted stepped
      exact both.2.step both.1.waiting taken
  have first : (start owners : SignalNetwork σ).Nested := by
    intro c d x i impossible
    cases impossible
  obtain ⟨chained, nested⟩ :=
    Runs.run_invariant keeps ⟨start_chained owners, first⟩ guarded ran
  constructor
  · exact AtRest.stuck
  · intro stuck
    exact Stuck.atRest stuck chained nested

/-! ### Connections that lead downwards -/

section

variable {m : Nat} {depth : ImplId → Fin m}

/-- A signal is connected as a slot to signals above it only. -/
def Downward (depth : ImplId → Fin m) (n : SignalNetwork σ) : NetworkAction σ → Prop
  | .call this (.connect arguments) => ∀ x y, n.pimpl this = some (some x) →
      arguments.slot.weakSignal = some y → depth y < depth x
  | _ => True

/-- Slots refer, and calls go, to signals below. -/
structure Layered (depth : ImplId → Fin m) (n : SignalNetwork σ) : Prop where
  slots : ∀ (x : ImplId) w, n.impls[x]? = some w → ∀ slot, w.HasSlot slot →
    ∀ y, slot.weakSignal = some y → depth y < depth x
  calls : ∀ call, some call ∈ n.calls → depth call.sharedPimpl < depth call.caller

theorem start_layered (depth : ImplId → Fin m) (owners : ObjectId → Nat) :
    (start owners : SignalNetwork σ).Layered depth where
  slots x w found := by cases found
  calls call member := by cases member

theorem Layered.step (layered : n.Layered depth) (downward : n.Downward depth a)
    (acted : Acted n a n') : n'.collect.Layered depth where
  slots x w found slot has y refers := by
    rw [collect_impls] at found
    obtain ⟨u, before, rfl⟩ := Option.map_eq_some_iff.mp found
    rcases acted.hasSlot before has with ⟨old, there, had⟩ | ⟨this, arguments, rfl, own, _, rfl⟩
    · exact layered.slots x old there slot had y refers
    · exact downward x y own refers
  calls call member := by
    have there : some call ∈ n'.calls := member
    cases acted.callOrigin there with
    | earlier first before target caller =>
        rw [target, caller]
        exact layered.calls first before
    | begun i w w' found stepped target running =>
        obtain ⟨slot, has, refers⟩ := weakTarget_slot target
        exact layered.slots call.caller w found slot has _ refers

/-! ### What is left to do at a level -/

/-- A call that waits for its turn is two steps from its end besides those of the signal that
it calls. -/
def callEffort (depth : ImplId → Fin m) (k : Fin m) : Option WeakSignalCall → Nat
  | none => 0
  | some call => if depth call.caller = k then if call.stage = .promoted then 2 else 1 else 0

/-- The steps that are left at the signals of a level, each of which may begin a call. -/
def signalEffort (depth : ImplId → Fin m) (k : Fin m) (x : ImplId) (w : World σ) : Nat :=
  if depth x = k then 3 * w.effort else 0

def levelEffort (depth : ImplId → Fin m) (n : SignalNetwork σ) (k : Fin m) : Nat :=
  total (signalEffort depth k) n.impls + total (fun _ => callEffort depth k) n.calls

theorem settle_effort : (n.settle x w).effort ≤ w.effort := by
  unfold settle
  split
  · have lighter : { w with
        owners := n.ownersSeen, heap := { w.heap with impl := none } }.sectionEffort ≤
          w.sectionEffort := by
      unfold World.sectionEffort
      cases w.critical with
      | none => exact Nat.le_refl _
      | some taken =>
          cases taken with
          | cleanupConnections it i count grabTracked after => exact Nat.zero_le _
          | _ => exact Nat.le_refl _
    exact Nat.add_le_add_right (Nat.add_le_add_right (Nat.add_le_add_right lighter _) _) _
  · exact Nat.le_refl _

theorem collect_levelEffort (k : Fin m) :
    n.collect.levelEffort depth k ≤ n.levelEffort depth k := by
  apply Nat.add_le_add_right
  apply total_mapIdx_le
  intro x w found
  unfold signalEffort
  split
  · exact Nat.mul_le_mul_left 3 settle_effort
  · exact Nat.le_refl _

theorem arrives_callEffort {k : Fin m} (calls : List (Option WeakSignalCall)) :
    total (fun _ => callEffort depth k) (calls.map (Option.map (arrives x w w'))) ≤
      total (fun _ => callEffort depth k) calls := by
  apply total_map_le
  intro c entry found
  cases entry with
  | none => exact Nat.le_refl _
  | some call =>
      by_cases arrived : call.sharedPimpl = x ∧ call.stage = .locking ∧
          w.invocations.length < w'.invocations.length
      · simp [arrives, arrived, callEffort]
      · simp [arrives, arrived]

/-- A step at one signal begins no more than one call, from there. -/
theorem callsFrom_callEffort {b : Action σ} {k : Fin m} (calls : List (Option WeakSignalCall)) :
    total (fun _ => callEffort depth k) (calls ++ callsFrom x w b w') ≤
      total (fun _ => callEffort depth k) calls + if depth x = k then 2 else 0 := by
  have nothing : total (fun _ => callEffort depth k) (calls ++ []) ≤
      total (fun _ => callEffort depth k) calls + if depth x = k then 2 else 0 := by
    rw [List.append_nil]
    exact Nat.le_add_right _ _
  cases b with
  | dereference i =>
      simp only [callsFrom]
      split
      · exact nothing
      · split
        · rw [total_append]
          exact Nat.le_refl _
        · exact nothing
  | _ => exact nothing

theorem taken_callEffort (depth : ImplId → Fin m) (x : ImplId) (w w' : World σ) (b : Action σ)
    (calls : List (Option WeakSignalCall)) (k : Fin m) :
    total (fun _ => callEffort depth k)
        (calls.map (Option.map (arrives x w w')) ++ callsFrom x w b w') ≤
      total (fun _ => callEffort depth k) calls + if depth x = k then 2 else 0 :=
  Nat.le_trans (callsFrom_callEffort _) (Nat.add_le_add_right (arrives_callEffort calls) _)

theorem set_signalEffort (depth : ImplId → Fin m) (found : n.impls[x]? = some w) (w' : World σ)
    (k : Fin m) :
    total (signalEffort depth k) (n.impls.set x w') + signalEffort depth k x w ≤
      total (signalEffort depth k) n.impls + signalEffort depth k x w' :=
  total_set _ _ found w' fun _ _ _ _ => Nat.le_refl _

/-- A step that carries on as it should, and is no exception. -/
def Calm (n : SignalNetwork σ) (a : NetworkAction σ) : Prop :=
  n.carriesOn a = true ∧ n.Careful a ∧ a.throws = false

theorem proceed_lowers {b : Action σ} (sound : n.Sound) (calm : n.Calm (.proceed x b))
    (stepped : n.proceed x b = some n') :
    n'.levelEffort depth (depth x) < n.levelEffort depth (depth x) ∧
      ∀ j, depth x < j → n'.levelEffort depth j ≤ n.levelEffort depth j := by
  obtain ⟨carries, careful, quiet⟩ := calm
  unfold proceed at stepped
  split at stepped
  · cases stepped
  · rename_i allowed
    simp only [not_or, Bool.not_eq_true] at allowed
    obtain ⟨w, w', found, taken, rfl⟩ := stepImpl_some stepped
    obtain ⟨compare, order, steady⟩ := (sound.came x w found).steady
    have takes : n.Takes (.proceed x b) x b := .proceed x b allowed.1 allowed.2.1 allowed.2.2
    have tame := takes.tame sound.linked careful found
    have continues : w.carriesOn b = true := by simpa [carriesOn, found] using carries
    have paid := steady.pays continues (steady.step order tame taken).sound taken
    have free : World.credit b = 0 := by
      cases b with
      | slotThrows i e => cases quiet
      | _ => rfl
    constructor
    · have more := taken_callEffort depth x w w' b n.calls (depth x)
      have less := set_signalEffort depth found w' (depth x)
      simp only [signalEffort, if_true] at less
      simp only [if_true] at more
      simp only [levelEffort]
      omega
    · intro j above
      have apart : depth x ≠ j := ne_of_lt above
      have more := taken_callEffort depth x w w' b n.calls j
      have less := set_signalEffort depth found w' j
      simp only [signalEffort, apart, if_false] at less
      simp only [apart, if_false] at more
      simp only [levelEffort]
      exact Nat.add_le_add less more

/-- An entry of the calls changes. -/
theorem set_callEffort (depth : ImplId → Fin m) {c : CallId} {entry : Option WeakSignalCall}
    (found : n.calls[c]? = some entry) (entry' : Option WeakSignalCall) (k : Fin m) :
    total (fun _ => callEffort depth k) (n.calls.set c entry') + callEffort depth k entry ≤
      total (fun _ => callEffort depth k) n.calls + callEffort depth k entry' :=
  total_set _ _ found entry' fun _ _ _ _ => Nat.le_refl _

/-- The signal that is called is below the caller. -/
theorem weakInvoke_lowers {c : CallId} (layered : n.Layered depth)
    (stepped : n.weakInvoke c = some n') :
    ∃ k, n'.levelEffort depth k < n.levelEffort depth k ∧
      ∀ j, k < j → n'.levelEffort depth j ≤ n.levelEffort depth j := by
  unfold weakInvoke at stepped
  split at stepped
  · cases stepped
  · rename_i call there
    split at stepped
    · rename_i promoted
      obtain ⟨w, w', target, taken, rfl⟩ := stepImpl_some stepped
      have found := Option.join_eq_some_iff.mp there
      have below := layered.calls call (List.mem_of_getElem? found)
      have higher : ∀ j, depth call.caller ≤ j →
          total (signalEffort depth j) (n.impls.set call.sharedPimpl w') ≤
            total (signalEffort depth j) n.impls := by
        intro j above
        have apart : depth call.sharedPimpl ≠ j := ne_of_lt (lt_of_lt_of_le below above)
        have same := set_signalEffort depth target w' j
        simp only [signalEffort, apart, if_false] at same
        exact same
      have calls := taken_callEffort depth call.sharedPimpl w w' .invoke
        (n.setStage c call .locking).calls
      have entry := set_callEffort depth found (some { call with stage := .locking })
      refine ⟨depth call.caller, ?_, ?_⟩
      · have signals := higher (depth call.caller) le_rfl
        have more := calls (depth call.caller)
        have less := entry (depth call.caller)
        have apart : depth call.sharedPimpl ≠ depth call.caller := ne_of_lt below
        simp only [callEffort, if_true, promoted] at less
        simp only [apart, if_false, setStage] at more
        simp only [levelEffort, setStage]
        simp at less
        omega
      · intro j above
        have signals := higher j (le_of_lt above)
        have more := calls j
        have less := entry j
        have apart : depth call.caller ≠ j := ne_of_lt above
        have apart' : depth call.sharedPimpl ≠ j := ne_of_lt (lt_trans below above)
        simp only [callEffort, apart, if_false] at less
        simp only [apart', if_false, setStage] at more
        simp only [levelEffort, setStage]
        omega
    · cases stepped

theorem weakReturn_lowers {c : CallId} (stepped : n.weakReturn c = some n') :
    ∃ k, n'.levelEffort depth k < n.levelEffort depth k ∧
      ∀ j, k < j → n'.levelEffort depth j ≤ n.levelEffort depth j := by
  unfold weakReturn at stepped
  split at stepped
  · cases stepped
  · rename_i call there
    split at stepped
    · split at stepped
      · cases stepped
        have found := Option.join_eq_some_iff.mp there
        have entry := set_callEffort depth found none
        refine ⟨depth call.caller, ?_, ?_⟩
        · have less := entry (depth call.caller)
          have waited : 0 < callEffort depth (depth call.caller) (some call) := by
            simp only [callEffort, if_true]
            split <;> decide
          have nothing : callEffort depth (depth call.caller) none = 0 := rfl
          simp only [levelEffort]
          omega
        · intro j above
          have less := entry j
          have nothing : callEffort depth j none = 0 := rfl
          simp only [levelEffort]
          omega
      · cases stepped
    · cases stepped

/-- Where connections lead downwards only, nothing goes on for ever: without exceptions,
whatever has been begun at any of the signals comes to its end. -/
theorem layered_networks_end {owners : ObjectId → Nat} {actions : List (NetworkAction σ)}
    (guarded : Runs.Guarded SignalNetwork.step (fun n a => n.Careful a ∧ n.Downward depth a)
      (start owners) actions)
    (ran : Runs.run SignalNetwork.step (start owners) actions = some n) :
    Acc (Runs.Follows SignalNetwork.step Calm) n := by
  have keeps : ∀ (state : SignalNetwork σ) (a : NetworkAction σ) (next : SignalNetwork σ),
      state.Sound ∧ state.Layered depth → state.Careful a ∧ state.Downward depth a →
        state.step a = some next → next.Sound ∧ next.Layered depth := by
    intro state a next both allowed stepped
    constructor
    · exact both.1.step allowed.1 stepped
    · obtain ⟨_, acted, taken, rfl⟩ := step_acted stepped
      exact both.2.step allowed.2 taken
  have reached : n.Sound ∧ n.Layered depth :=
    Runs.run_invariant keeps ⟨start_sound owners, start_layered depth owners⟩ guarded ran
  have calmly : ∀ (state : SignalNetwork σ) (a : NetworkAction σ) (next : SignalNetwork σ),
      state.Sound ∧ state.Layered depth → state.Calm a → state.step a = some next →
        next.Sound ∧ next.Layered depth := by
    intro state a next both calm stepped
    apply keeps state a next both _ stepped
    constructor
    · exact calm.2.1
    · cases a with
      | call this b => cases calm.1
      | _ => trivial
  have lowers : ∀ (state : SignalNetwork σ) (a : NetworkAction σ) (next : SignalNetwork σ),
      state.Sound ∧ state.Layered depth → state.Calm a → state.step a = some next →
        ∃ k, next.levelEffort depth k < state.levelEffort depth k ∧
          ∀ j, k < j → next.levelEffort depth j ≤ state.levelEffort depth j := by
    intro state a next both calm stepped
    have lowered : ∀ acted, state.act a = some acted →
        ∃ k, acted.levelEffort depth k < state.levelEffort depth k ∧
          ∀ j, k < j → acted.levelEffort depth j ≤ state.levelEffort depth j := by
      intro acted taken
      cases a with
      | proceed x b => exact ⟨depth x, proceed_lowers both.1 calm taken⟩
      | weakInvoke c => exact weakInvoke_lowers both.2 taken
      | weakReturn c => exact weakReturn_lowers taken
      | _ => cases calm.1
    unfold SignalNetwork.step at stepped
    split at stepped
    · cases stepped
    · obtain ⟨acted, taken, rfl⟩ := Option.map_eq_some_iff.mp stepped
      obtain ⟨k, lower, above⟩ := lowered acted taken
      refine ⟨k, ?_, ?_⟩
      · exact Nat.lt_of_le_of_lt (collect_levelEffort k) lower
      · intro j higher
        exact Nat.le_trans (collect_levelEffort j) (above j higher)
  exact Runs.acc_of_levels calmly lowers reached

end

/-- Evaluates `Downward`. -/
def downward {m : Nat} (depth : ImplId → Fin m) (n : SignalNetwork σ) : NetworkAction σ → Bool
  | .call this (.connect arguments) =>
      match n.pimpl this, arguments.slot.weakSignal with
      | some (some x), some y => depth y < depth x
      | _, _ => true
  | _ => true

theorem downward_of_check {m : Nat} {depth : ImplId → Fin m} (holds : n.downward depth a = true) :
    n.Downward depth a := by
  cases a with
  | call this b =>
      cases b with
      | connect arguments =>
          intro x y own refers
          simpa [downward, own, refers] using holds
      | _ => trivial
  | _ => trivial

end SignalNetwork

/-- A signal is connected to itself, and calls itself again and again. -/
def callItself : List (NetworkAction natSignal) :=
  [.call 0 (.connect { group := none, slot := .ofSignal (pimplObject 0), position := .atBack }),
    .proceed 0 .section, .call 0 .invoke, .proceed 0 .section, .proceed 0 .section,
    .proceed 0 (.lockNext 0), .proceed 0 .section, .proceed 0 .section, .proceed 0 .section,
    .proceed 0 (.dereference 0), .weakInvoke 0, .proceed 0 (.lockNext 1), .proceed 0 .section,
    .proceed 0 .section, .proceed 0 .section, .proceed 0 (.dereference 1)]

theorem callItself_carries_on :
    ∃ n : SignalNetwork natSignal,
      Runs.run SignalNetwork.step natNetwork ([newSignal, newSignal] ++ callItself) = some n ∧
      n.callers = [some (0, 0), some (0, 1)] ∧
      ∃ a, n.carriesOn a = true ∧ n.step a ≠ none := by
  have ends : (Runs.run SignalNetwork.step natNetwork
      ([newSignal, newSignal] ++ callItself)).map SignalNetwork.callers =
        some [some (0, 0), some (0, 1)] := by decide +kernel
  obtain ⟨n, ran, callers⟩ := Option.map_eq_some_iff.mp ends
  refine ⟨n, ran, callers, ?_⟩
  have busy : ¬ n.AtRest := by
    intro rest
    have none_ : ∀ entry ∈ n.callers, entry = none := by
      intro entry member
      obtain ⟨call, inside, rfl⟩ := List.mem_map.mp member
      rw [rest.returned call inside]
      rfl
    rw [callers] at none_
    cases none_ _ List.mem_cons_self
  by_contra stuck
  apply busy
  apply (SignalNetwork.networks_carry_on (network_careful (by decide +kernel)) ran).mpr
  intro a carries
  by_contra enabled
  exact stuck ⟨a, carries, enabled⟩

/-- The first signal above all others. -/
def firstAbove (x : ImplId) : Fin 2 := if x = 0 then 1 else 0

theorem callAndDestroy_layered :
    ∃ n : SignalNetwork natSignal,
      Runs.run SignalNetwork.step natNetwork
        ([newSignal, newSignal] ++ (connectSignals ++ callAndDestroy)) = some n ∧
      n.callers = [some (0, 0)] ∧
      Acc (Runs.Follows SignalNetwork.step SignalNetwork.Calm) n := by
  have ends : (Runs.run SignalNetwork.step natNetwork
      ([newSignal, newSignal] ++ (connectSignals ++ callAndDestroy))).map SignalNetwork.callers =
        some [some (0, 0)] := by decide +kernel
  obtain ⟨n, ran, callers⟩ := Option.map_eq_some_iff.mp ends
  have guarded : Runs.Guarded SignalNetwork.step
      (fun n a => n.Careful a ∧ n.Downward firstAbove a) natNetwork
      ([newSignal, newSignal] ++ (connectSignals ++ callAndDestroy)) := by
    have checks : ∀ (n : SignalNetwork natSignal) a,
        (n.careful a && n.downward firstAbove a) = true →
          n.Careful a ∧ n.Downward firstAbove a := by
      intro n a holds
      obtain ⟨careful, downward⟩ := Bool.and_eq_true_iff.mp holds
      exact ⟨SignalNetwork.careful_of_check careful, SignalNetwork.downward_of_check downward⟩
    exact network_guarded (fun n => ⟨newSignal_careful n, trivial⟩) checks (by decide +kernel)
  exact ⟨n, ran, callers, SignalNetwork.layered_networks_end guarded ran⟩

end Signals2
