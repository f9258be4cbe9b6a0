/-
Signals connected to signals.  What happens at each signal of a network is a run of its own.
A call through a weak reference keeps the signal that it calls, whatever becomes of the
signal object; only direct calls need care.
-/

import Mathlib.Data.List.Dedup
import Signals2.Library.IndexedLists
import Signals2.SignalNetworks

namespace Signals2

open OrderedInsertion

variable {σ : SignalTemplate}

/-- The signal that a call is at, with its invocation there; none while it is on the way. -/
def WeakSignalCall.lodging (call : WeakSignalCall) : Option (ImplId × Option InvocationId) :=
  match call.stage with
  | .promoted => none
  | .locking => some (call.sharedPimpl, none)
  | .invoked i => some (call.sharedPimpl, some i)

/-- An invocation is in progress, or on the way to its copy of the list. -/
def World.Houses (w : World σ) : Option InvocationId → Prop
  | none => w.sweepFor = some .invoke
  | some i => i < w.invocations.length

namespace SignalNetwork

variable {n n' : SignalNetwork σ} {a : NetworkAction σ} {o : ObjectId} {x : ImplId}
variable {w w' : World σ}

/-! ### What other signals see of a step -/

theorem Acted.newly_lost (acted : Acted n a n') (kept : n.lost o = false)
    (gone : n'.lost o = true) : o ∈ n.referred ∨ a = .drop o := by
  obtain ⟨born', owners', unreferred'⟩ := lost_iff.mp gone
  cases born : n.born o with
  | false =>
      exfalso
      simp only [SignalNetwork.born] at born born'
      cases known : pimplOf o with
      | none => simp [known] at born
      | some y =>
          simp only [known, decide_eq_false_iff_not, decide_eq_true_eq] at born born'
          cases acted with
          | constructs combiner defaultCompare groupCompare =>
              have length : y < n.impls.length + 1 := by
                rw [← List.length_singleton, ← List.length_append]
                exact born'
              have last : y = n.impls.length :=
                Nat.le_antisymm (Nat.le_of_lt_succ length) (Nat.le_of_not_lt born)
              refine unreferred' (mem_referred.mpr (.inl ⟨y, ?_, pimplObject_of_pimplOf known⟩))
              rw [last]
              exact List.mem_append_right _ List.mem_cons_self
          | takes x b w w' taken found stepped =>
              rw [List.length_set] at born'
              exact born born'
          | _ => exact born born'
  | true =>
      have owned : 0 < n.owners o ∨ o ∈ n.referred := by
        by_contra neither
        rw [not_or] at neither
        rw [lost_iff.mpr ⟨born, Nat.eq_zero_of_not_pos neither.1, neither.2⟩] at kept
        cases kept
      rcases owned with positive | referred
      · right
        cases acted with
        | acquires other free owned =>
            have none : Function.update n.owners other (n.owners other + 1) o = 0 := owners'
            by_cases same : o = other
            · subst same
              rw [Function.update_self] at none
              cases none
            · rw [Function.update_of_ne same] at none
              exact absurd none (Nat.ne_of_gt positive)
        | drops other some =>
            have none : Function.update n.owners other (n.owners other - 1) o = 0 := owners'
            by_cases same : o = other
            · rw [same]
            · rw [Function.update_of_ne same] at none
              exact absurd none (Nat.ne_of_gt positive)
        | _ => exact absurd owners' (Nat.ne_of_gt positive)
      · exact .inl referred

/-- The objects that a step releases. -/
def released (n n' : SignalNetwork σ) (a : NetworkAction σ) : List ObjectId :=
  ((n.referred ++
      match a with
      | .drop o => [o]
      | _ => []).filter fun o => !n.lost o && n'.lost o).dedup

theorem Acted.mem_released (acted : Acted n a n') :
    o ∈ released n n' a ↔ n.lost o = false ∧ n'.lost o = true := by
  simp only [released, List.mem_dedup, List.mem_filter, List.mem_append, Bool.and_eq_true,
    Bool.not_eq_true', and_iff_right_iff_imp, and_imp]
  intro kept gone
  rcases acted.newly_lost kept gone with referred | rfl
  · exact .inl referred
  · exact .inr List.mem_cons_self

/-- What a step does to a signal besides the signal's own step: the objects that nobody owns
any more are released, and so is the signal itself. -/
theorem Acted.settles (acted : Acted n a n') (linked : n.Linked)
    (seen : w.owners = n.ownersSeen) (came : w.Came) : (n'.settle x w).Came := by
  obtain ⟨compare, order, steady⟩ := came.steady
  have single : ∀ o ∈ released n n' a, w.owners o = 1 := by
    intro o member
    rw [seen, ownersSeen, (acted.mem_released.mp member).1]
    rfl
  have distinct : (released n n' a).Nodup := List.nodup_dedup _
  have dropped := World.run_drops steady.sound distinct single
  have owners : (fun o => if o ∈ released n n' a then 0 else w.owners o) = n'.ownersSeen := by
    funext o
    rw [seen, ownersSeen, ownersSeen]
    cases gone' : n'.lost o with
    | true =>
        cases gone : n.lost o with
        | true => simp
        | false => simp [acted.mem_released.mpr ⟨gone, gone'⟩]
    | false =>
        have kept : n.lost o = false := by
          cases gone : n.lost o with
          | false => rfl
          | true => rw [acted.lost linked gone] at gone'; cases gone'
        have stays : o ∉ released n n' a := by
          intro member
          rw [(acted.mem_released.mp member).2] at gone'
          cases gone'
        simp [stays, kept]
  rw [owners] at dropped
  have calm : Runs.Guarded World.step World.Tame w ((released n n' a).map .drop) := by
    apply Runs.Guarded.of_forall
    intro b member s
    obtain ⟨o, _, rfl⟩ := List.mem_map.mp member
    exact World.tame_of_owner rfl
  have after := came.continues calm dropped
  unfold settle
  split
  · cases present : w.heap.impl with
    | none =>
        have same : { w.heap with impl := none } = w.heap := by
          rw [← present]
        rw [same]
        exact after
    | some impl =>
        have destroys : Runs.run World.step { w with owners := n'.ownersSeen } [.destroy] =
            some { w with owners := n'.ownersSeen, heap := { w.heap with impl := none } } := by
          have sound := steady.sound
          simp [Runs.run, World.step, World.destroy, World.setHeap, sound, present]
        have tame : Runs.Guarded World.step World.Tame { w with owners := n'.ownersSeen }
            [.destroy] := ⟨World.tame_of_owner rfl, fun _ _ => trivial⟩
        exact after.continues tame destroys
  · exact after

theorem Acted.single (acted : Acted n a n') (linked : n.Linked) : n'.Unshared := by
  cases acted with
  | constructs combiner defaultCompare groupCompare =>
      intro this other x points points'
      rw [constructSignal_pimpl] at points points'
      have fresh : ∀ that, n.pimpl that ≠ some (some n.impls.length) := fun that points =>
        Nat.lt_irrefl _ (linked.pointed that _ points)
      split at points
      · cases points
        split at points'
        · rename_i same same'
          exact same.trans same'.symm
        · exact absurd points' (fresh other)
      · split at points'
        · cases points'
          exact absurd points (fresh this)
        · exact linked.single this other x points points'
  | objects signals pointed single => exact single linked.single
  | _ => exact linked.single

/-- Where the state of a signal after a step comes from. -/
inductive Source (n : SignalNetwork σ) (a : NetworkAction σ) (x : ImplId) (w : World σ) : Prop
  | kept (found : n.impls[x]? = some w)
  | constructed (combiner : σ.Combiner) (defaultCompare groupCompare : σ.Group → σ.Group → Bool)
      (a_eq : a = .constructSignal combiner defaultCompare groupCompare)
      (w_eq : w = World.construct combiner defaultCompare groupCompare n.ownersSeen)
  | stepped (b : Action σ) (u : World σ) (taken : n.Takes a x b) (found : n.impls[x]? = some u)
      (steps : u.step b = some w)

theorem Acted.source (acted : Acted n a n') (found : n'.impls[x]? = some w) : Source n a x w := by
  cases acted with
  | constructs combiner defaultCompare groupCompare =>
      have now : (n.impls ++ [World.construct combiner defaultCompare groupCompare
          n.ownersSeen])[x]? = some w := found
      by_cases inside : x < n.impls.length
      · rw [List.getElem?_append_left inside] at now
        exact .kept now
      · rw [List.getElem?_append_right (Nat.le_of_not_lt inside)] at now
        have new := List.mem_singleton.mp (List.mem_of_getElem? now)
        exact .constructed combiner defaultCompare groupCompare rfl new
  | takes y b u u' taken there steps =>
      have now : (n.impls.set y u')[x]? = some w := found
      by_cases same : y = x
      · subst same
        rw [List.getElem?_set_self (List.getElem?_eq_some_iff.mp there).1] at now
        cases now
        exact .stepped b u taken there steps
      · rw [List.getElem?_set_ne same] at now
        exact .kept now
  | _ => exact .kept found

theorem Takes.library {b : Action σ} (taken : n.Takes a x b) : b.ofOwner = false := by
  cases taken with
  | call this x b own ofSignal acceptable => cases b <;> first | rfl | cases ofSignal
  | proceed x b notSignal notOwner back => exact notOwner
  | weakInvoke c call found promoted => rfl

/-- A signal that somebody owns is there. -/
theorem Source.present (source : Source n a x w) (linked : n.Linked)
    (kept : n.lost (pimplObject x) = false) : w.heap.impl ≠ none := by
  have old : ∀ u, n.impls[x]? = some u → u.heap.impl ≠ none := by
    intro u before gone
    rw [(linked.present x u before).mp gone] at kept
    cases kept
  cases source with
  | kept found => exact old w found
  | constructed combiner defaultCompare groupCompare a_eq w_eq =>
      subst w_eq
      exact fun gone => by cases gone
  | stepped b u taken found steps =>
      have stays : b ≠ .destroy := by
        rintro rfl
        cases taken.library
      exact (World.step_effect steps).2.change.heap.present stays (old u found)

theorem Source.seen (source : Source n a x w) (linked : n.Linked) : w.owners = n.ownersSeen := by
  cases source with
  | kept found => exact linked.seen x w found
  | constructed combiner defaultCompare groupCompare a_eq w_eq => rw [w_eq]; rfl
  | stepped b u taken found steps =>
      rw [World.step_owners steps taken.library]
      exact linked.seen x u found

theorem Linked.step (linked : n.Linked) (acted : Acted n a n') : n'.collect.Linked where
  seen x w found := by
    rw [collect_impls] at found
    obtain ⟨u, before, rfl⟩ := Option.map_eq_some_iff.mp found
    exact collect_ownersSeen.symm
  present x w found := by
    rw [collect_impls] at found
    obtain ⟨u, before, rfl⟩ := Option.map_eq_some_iff.mp found
    rw [collect_lost]
    cases gone : n'.lost (pimplObject x) with
    | true => simp [settle, gone]
    | false =>
        have kept : n.lost (pimplObject x) = false := by
          cases earlier : n.lost (pimplObject x) with
          | false => rfl
          | true => rw [acted.lost linked earlier] at gone; cases gone
        have there := (acted.source before).present linked kept
        simp [settle, gone, there]
  pointed this x points := by
    have length : n'.collect.impls.length = n'.impls.length := List.length_mapIdx
    rw [length]
    rcases acted.points points with ⟨other, earlier⟩ | ⟨rfl, longer⟩
    · exact Nat.lt_of_lt_of_le (linked.pointed other x earlier) acted.length
    · rw [longer]
      exact Nat.lt_succ_self _
  single := acted.single linked

/-! ### Networks that are used with care -/

/-- Group comparisons are orders, and no null signal is used.  `set_combiner` is called
while nothing is in progress there.  What outlives a signal does not need it, unless a call
through a weak reference keeps the signal. -/
def Careful (n : SignalNetwork σ) : NetworkAction σ → Prop
  | .constructSignal _ defaultCompare groupCompare =>
      StrictWeak groupCompare ∧ ∀ p q, defaultCompare p q = groupCompare p q
  | .call this b =>
      (n.pimpl this = some none → b.testsPimpl = true) ∧
        ∀ combiner, b = .setCombiner combiner →
          ∀ x w, n.pimpl this = some (some x) → n.impls[x]? = some w →
            (∀ inv ∈ w.invocations, inv.localState = none) ∧
              ∀ tr ∈ w.traversals, tr.localState = none
  | .proceed x b =>
      (∃ call, some call ∈ n.calls ∧ call.sharedPimpl = x) ∨
        ∀ w, n.impls[x]? = some w → World.Spared w b
  | _ => True

/-- Slots track, and calls go to, what has been made. -/
structure Known (n : SignalNetwork σ) : Prop where
  slots : ∀ (x : ImplId) w, n.impls[x]? = some w → ∀ slot, w.HasSlot slot →
    ∀ p ∈ slot.trackedObjects, n.born p.object = true
  calls : ∀ call, some call ∈ n.calls → call.sharedPimpl < n.impls.length

/-- A slot that there is after a step was there before, or is connected by it. -/
theorem Acted.hasSlot (acted : Acted n a n') (found : n'.impls[x]? = some w) {slot : Slot σ}
    (has : w.HasSlot slot) :
    (∃ u, n.impls[x]? = some u ∧ u.HasSlot slot) ∨
      ∃ this arguments, a = .call this (.connect arguments) ∧ n.pimpl this = some (some x) ∧
        n.accepts arguments.slot = true ∧ arguments.slot = slot := by
  cases acted.source found with
  | kept there => exact .inl ⟨w, there, has⟩
  | constructed combiner defaultCompare groupCompare a_eq w_eq =>
      subst w_eq
      rcases has with ⟨b, held⟩ | ⟨arguments, connecting, _⟩
      · cases held
      · cases connecting
  | stepped b old taken there steps =>
      rcases World.step_hasSlot steps has with earlier | ⟨arguments, rfl, rfl⟩
      · exact .inl ⟨old, there, earlier⟩
      · cases taken with
        | call this x b own ofSignal acceptable =>
            exact .inr ⟨this, arguments, rfl, own, acceptable, rfl⟩
        | proceed x b notSignal notOwner back => cases notSignal

/-- What an invocation stands at is the slot of a connection. -/
theorem weakTarget_slot {i : InvocationId} {y : ImplId} (target : w.weakTarget i = some y) :
    ∃ slot, w.HasSlot slot ∧ slot.weakSignal = some y := by
  obtain ⟨inv, _, rest⟩ := Option.bind_eq_some_iff.mp target
  obtain ⟨b, _, rest⟩ := Option.bind_eq_some_iff.mp rest
  obtain ⟨slot, held, refers⟩ := Option.bind_eq_some_iff.mp rest
  exact ⟨slot, .inl ⟨b, held⟩, refers⟩

/-- A slot refers to a signal that exists. -/
theorem Known.target (known : n.Known) (found : n.impls[x]? = some w) {slot : Slot σ}
    (has : w.HasSlot slot) {y : ImplId} (refers : slot.weakSignal = some y) :
    y < n.impls.length := by
  unfold Slot.weakSignal at refers
  split at refers
  · cases refers
  · rename_i weakPimpl kind
    have tracked := slot.tracksSignal weakPimpl kind
    have born := known.slots x w found slot has _ tracked
    have same : pimplObject y = weakPimpl := pimplObject_of_pimplOf refers
    apply born_pimplObject.mp
    rw [same]
    exact born

theorem Known.step (known : n.Known) (acted : Acted n a n') : n'.collect.Known where
  slots x w found slot has p tracked := by
    rw [collect_impls] at found
    obtain ⟨u, before, rfl⟩ := Option.map_eq_some_iff.mp found
    have length : n'.collect.impls.length = n'.impls.length := List.length_mapIdx
    have same : n'.collect.born p.object = n'.born p.object := by
      simp only [SignalNetwork.born, length]
    rw [same]
    apply acted.born
    rcases acted.hasSlot before has with ⟨old, there, had⟩ | ⟨_, arguments, _, _, accepted, rfl⟩
    · exact known.slots x old there slot had p tracked
    · exact List.all_eq_true.mp (Bool.and_eq_true_iff.mp accepted).1 p tracked
  calls call member := by
    have length : n'.collect.impls.length = n'.impls.length := List.length_mapIdx
    rw [length]
    apply Nat.lt_of_lt_of_le _ acted.length
    have there : some call ∈ n'.calls := member
    cases acted.callOrigin there with
    | earlier first before target caller =>
        rw [target]
        exact known.calls first before
    | begun i w w' found stepped target running =>
        obtain ⟨slot, has, refers⟩ := weakTarget_slot target
        exact known.target found has refers

/-- Each signal has come through a run of its own. -/
structure Sound (n : SignalNetwork σ) : Prop where
  linked : n.Linked
  known : n.Known
  came : ∀ (x : ImplId) w, n.impls[x]? = some w → w.Came
  noNull : n.nullPimpl = false

/-- A call through a weak reference keeps the signal. -/
theorem Linked.kept (linked : n.Linked) {call : WeakSignalCall} (member : some call ∈ n.calls)
    (found : n.impls[call.sharedPimpl]? = some w) : w.heap.impl ≠ none := by
  intro gone
  have referred := mem_referred.mpr (.inr (.inl ⟨call, member, rfl⟩))
  have lost := (linked.present call.sharedPimpl w found).mp gone
  rw [not_lost_of_referred referred] at lost
  cases lost

theorem Takes.tame {b : Action σ} (taken : n.Takes a x b) (linked : n.Linked)
    (careful : n.Careful a) (found : n.impls[x]? = some w) : World.Tame w b := by
  cases taken with
  | call this x b own ofSignal acceptable =>
      constructor
      · intro combiner same
        exact careful.2 combiner same x w own found
      · constructor
        · rintro i inv rfl
          cases ofSignal
        · rintro rfl
          cases ofSignal
  | proceed x b notSignal notOwner back =>
      constructor
      · rintro combiner rfl
        cases notSignal
      · rcases careful with ⟨call, member, rfl⟩ | spared
        · exact World.spared_of_present (linked.kept member found)
        · exact spared w found
  | weakInvoke c call there promoted =>
      constructor
      · intro combiner impossible
        cases impossible
      · exact World.spared_of_present (linked.kept (List.mem_of_getElem? there) found)

theorem Sound.step (sound : n.Sound) (careful : n.Careful a) (stepped : n.step a = some n') :
    n'.Sound := by
  obtain ⟨noNull, acted, taken, rfl⟩ := step_acted stepped
  have linked := sound.linked
  constructor
  · exact linked.step taken
  · exact sound.known.step taken
  · intro x w found
    rw [collect_impls] at found
    obtain ⟨u, before, rfl⟩ := Option.map_eq_some_iff.mp found
    have source := taken.source before
    apply taken.settles linked (source.seen linked)
    cases source with
    | kept there => exact sound.came x u there
    | constructed combiner defaultCompare groupCompare a_eq u_eq =>
        subst a_eq
        obtain ⟨order, agree⟩ := careful
        have same : defaultCompare = groupCompare := funext fun p => funext fun q => agree p q
        subst same
        subst u_eq
        exact ⟨combiner, defaultCompare, n.ownersSeen, order, [], trivial, rfl⟩
    | stepped b old takes there steps =>
        have once : Runs.run World.step old [b] = some u := by simp only [Runs.run, steps]
        have tame : Runs.Guarded World.step World.Tame old [b] :=
          ⟨takes.tame linked careful there, fun _ _ => trivial⟩
        exact (sound.came x old there).continues tame once
  · cases taken with
    | null this b points uses =>
        rw [careful.1 points] at uses
        cases uses
    | _ => exact noNull

theorem start_sound (owners : ObjectId → Nat) : (start owners : SignalNetwork σ).Sound where
  linked := start_linked owners
  known :=
    { slots := by intro x w found; cases found
      calls := by intro call member; cases member }
  came x w found := by cases found
  noNull := rfl

/-! ### Calls in progress -/

/-- The slot functions that are calling another signal. -/
def callers (n : SignalNetwork σ) : List (Option (ImplId × InvocationId)) :=
  n.calls.map (Option.map fun call => (call.caller, call.invocation))

/-- Every caller waits in its slot function, and is in one call only. -/
structure Waiting (n : SignalNetwork σ) : Prop where
  running : ∀ (x : ImplId) i, some (x, i) ∈ n.callers →
    ∃ w, n.impls[x]? = some w ∧ w.phaseOf i = some .running
  single : n.callers.reduceOption.Nodup

theorem callers_awaiting {b : Action σ} {i : InvocationId} (back : n.awaiting x b = false)
    (calling : some (x, i) ∈ n.callers) :
    (∀ result, b ≠ .slotReturns i result) ∧ ∀ e, b ≠ .slotThrows i e := by
  obtain ⟨c, member, same⟩ := List.mem_map.mp calling
  obtain ⟨call, rfl, same⟩ := Option.map_eq_some_iff.mp same
  cases same
  have inside : call ∈ n.calls.reduceOption := List.reduceOption_mem_iff.mpr member
  constructor
  · rintro result rfl
    simp only [awaiting, List.any_eq_false] at back
    exact back call inside (by simp)
  · rintro e rfl
    simp only [awaiting, List.any_eq_false] at back
    exact back call inside (by simp)

theorem Takes.waits {b : Action σ} (taken : n.Takes a x b) {i : InvocationId}
    (calling : some (x, i) ∈ n.callers) :
    (∀ result, b ≠ .slotReturns i result) ∧ ∀ e, b ≠ .slotThrows i e := by
  cases taken with
  | call this x b own ofSignal acceptable =>
      constructor
      · rintro result rfl
        cases ofSignal
      · rintro e rfl
        cases ofSignal
  | proceed x b notSignal notOwner back => exact callers_awaiting back calling
  | weakInvoke c call found promoted =>
      constructor
      · intro result impossible
        cases impossible
      · intro e impossible
        cases impossible

theorem callsBefore_callers :
    (n.callsBefore a).map (Option.map fun call => (call.caller, call.invocation)) =
      n.callers := by
  cases a with
  | weakInvoke c =>
      simp only [callsBefore]
      split
      · rfl
      · rename_i call found
        have there := Option.join_eq_some_iff.mp found
        exact IndexedLists.map_set_same there rfl
  | _ => rfl

theorem arrives_callers {y : ImplId} {u u' : World σ} (calls : List (Option WeakSignalCall)) :
    (calls.map (Option.map (arrives y u u'))).map
        (Option.map fun call => (call.caller, call.invocation)) =
      calls.map (Option.map fun call => (call.caller, call.invocation)) := by
  rw [List.map_map]
  apply List.map_congr_left
  intro c _
  cases c with
  | none => rfl
  | some call =>
      simp only [Function.comp_apply, Option.map_some, arrives]
      split <;> rfl

theorem mem_callsFrom {b : Action σ} {u u' : World σ} {y : ImplId} {i : InvocationId}
    (new : some (y, i) ∈
      (callsFrom x u b u').map (Option.map fun call => (call.caller, call.invocation))) :
    y = x ∧ b = .dereference i ∧ u'.phaseOf i = some .running := by
  obtain ⟨c, member, same⟩ := List.mem_map.mp new
  cases b with
  | dereference j =>
      simp only [callsFrom] at member
      split at member
      · cases member
      · split at member
        · rename_i running
          cases List.mem_singleton.mp member
          cases same
          exact ⟨rfl, rfl, running⟩
        · cases member
  | _ => cases member

theorem callsFrom_single {b : Action σ} {u u' : World σ} :
    ((callsFrom x u b u').map
      (Option.map fun call => (call.caller, call.invocation))).reduceOption.Nodup := by
  cases b with
  | dereference j =>
      simp only [callsFrom]
      split
      · exact List.nodup_nil
      · split
        · exact List.nodup_singleton _
        · exact List.nodup_nil
  | _ => exact List.nodup_nil

theorem Waiting.collect (waiting : n.Waiting) : n.collect.Waiting where
  running x i calling := by
    obtain ⟨w, found, running⟩ := waiting.running x i calling
    refine ⟨n.settle x w, ?_, running⟩
    rw [collect_impls, found]
    rfl
  single := waiting.single

theorem takes_callers {b : Action σ} {u u' : World σ} {impls : List (World σ)} :
    { n with
      impls := impls
      calls := (n.callsBefore a).map (Option.map (arrives x u u')) ++
        callsFrom x u b u' }.callers =
      n.callers ++ (callsFrom x u b u').map
        (Option.map fun call => (call.caller, call.invocation)) := by
  simp only [callers, List.map_append, arrives_callers]
  rw [callsBefore_callers, callers]

theorem returns_callers {c : CallId} :
    { n with calls := n.calls.set c none }.callers = n.callers.set c none := by
  simp only [callers, List.map_set, Option.map_none]

theorem Waiting.step (waiting : n.Waiting) (sound : n.Sound) (acted : Acted n a n') :
    n'.Waiting := by
  cases acted with
  | constructs combiner defaultCompare groupCompare =>
      constructor
      · intro x i calling
        obtain ⟨w, found, running⟩ := waiting.running x i calling
        refine ⟨w, ?_, running⟩
        exact (List.getElem?_append_left (List.getElem?_eq_some_iff.mp found).1).trans found
      · exact waiting.single
  | takes x b u u' taken found stepped =>
      have inside := (List.getElem?_eq_some_iff.mp found).1
      constructor
      · intro y i calling
        rw [takes_callers] at calling
        rcases List.mem_append.mp calling with old | new
        · obtain ⟨w, there, running⟩ := waiting.running y i old
          by_cases same : x = y
          · subst same
            cases found.symm.trans there
            obtain ⟨compare, order, steady⟩ := (sound.came x u found).steady
            obtain ⟨returns, throws⟩ := taken.waits old
            exact ⟨u', List.getElem?_set_self inside,
              steady.running_kept stepped running returns throws⟩
          · exact ⟨w, (List.getElem?_set_ne same).trans there, running⟩
        · obtain ⟨rfl, _, running⟩ := mem_callsFrom new
          exact ⟨u', List.getElem?_set_self inside, running⟩
      · rw [takes_callers, List.reduceOption_append]
        apply List.nodup_append.mpr
        refine ⟨waiting.single, callsFrom_single, ?_⟩
        rintro ⟨y, i⟩ old other new rfl
        obtain ⟨rfl, rfl, _⟩ := mem_callsFrom (List.reduceOption_mem_iff.mp new)
        obtain ⟨w, there, running⟩ := waiting.running y i (List.reduceOption_mem_iff.mp old)
        cases found.symm.trans there
        exact World.not_running_of_dereference stepped running
  | returns c call i w found stage there done =>
      constructor
      · intro y j calling
        rw [returns_callers] at calling
        rcases List.mem_or_eq_of_mem_set calling with old | impossible
        · exact waiting.running y j old
        · cases impossible
      · rw [returns_callers]
        exact waiting.single.sublist (IndexedLists.reduceOption_set_none n.callers c)
  | _ => exact ⟨waiting.running, waiting.single⟩

/-! ### Where the calls are -/

def lodging (n : SignalNetwork σ) (c : CallId) : Option (ImplId × Option InvocationId) :=
  n.calls[c]?.join.bind WeakSignalCall.lodging

/-- Each call comes to an invocation of its own. -/
structure Lodged (n : SignalNetwork σ) : Prop where
  housed : ∀ c x place, n.lodging c = some (x, place) →
    ∃ w, n.impls[x]? = some w ∧ w.Houses place
  own : ∀ c d lodging, n.lodging c = some lodging → n.lodging d = some lodging → c = d

theorem start_lodged (owners : ObjectId → Nat) : (start owners : SignalNetwork σ).Lodged where
  housed c x place impossible := by cases impossible
  own c d lodging impossible := by cases impossible

theorem callsBefore_lodging {c : CallId} {lodging : ImplId × Option InvocationId}
    (found : (n.callsBefore a)[c]?.join.bind WeakSignalCall.lodging = some lodging) :
    n.lodging c = some lodging ∨ ∃ call, a = .weakInvoke c ∧ n.calls[c]? = some (some call) ∧
      lodging = (call.sharedPimpl, none) := by
  cases a with
  | weakInvoke d =>
      simp only [callsBefore] at found
      split at found
      · exact .inl found
      · rename_i call there
        have before := Option.join_eq_some_iff.mp there
        by_cases same : d = c
        · subst same
          rw [List.getElem?_set_self (List.getElem?_eq_some_iff.mp before).1] at found
          exact .inr ⟨call, rfl, before, (Option.some.inj found).symm⟩
        · rw [List.getElem?_set_ne same] at found
          exact .inl found
  | _ => exact .inl found

theorem callsFrom_lodging {b : Action σ} {call : WeakSignalCall}
    (new : some call ∈ callsFrom x w b w') : call.lodging = none := by
  cases b with
  | dereference i =>
      simp only [callsFrom] at new
      split at new
      · cases new
      · split at new
        · cases List.mem_singleton.mp new
          rfl
        · cases new
  | _ => cases new

/-- How a call comes to be where it is after a step at one signal. -/
inductive Lodges (n : SignalNetwork σ) (a : NetworkAction σ) (x : ImplId) (w w' : World σ)
    (c : CallId) : ImplId × Option InvocationId → Prop
  | stays (y : ImplId) (place : Option InvocationId) (before : n.lodging c = some (y, place))
      (still : y = x → place = none → ¬ w.invocations.length < w'.invocations.length) :
      Lodges n a x w w' c (y, place)
  | sets (first : a = .weakInvoke c)
      (still : ¬ w.invocations.length < w'.invocations.length) : Lodges n a x w w' c (x, none)
  | arrives (before : n.lodging c = some (x, none) ∨ a = .weakInvoke c)
      (more : w.invocations.length < w'.invocations.length) :
      Lodges n a x w w' c (x, some w.invocations.length)

theorem Takes.lodges {b : Action σ} (taken : n.Takes a x b) {c : CallId}
    {lodging : ImplId × Option InvocationId}
    (found : ((n.callsBefore a).map (Option.map (arrives x w w')) ++
      callsFrom x w b w')[c]?.join.bind WeakSignalCall.lodging = some lodging) :
    Lodges n a x w w' c lodging := by
  obtain ⟨call, there, lodged⟩ := Option.bind_eq_some_iff.mp found
  have member := Option.join_eq_some_iff.mp there
  rw [List.getElem?_append] at member
  split at member
  · rw [List.getElem?_map] at member
    obtain ⟨entry, earlier, same⟩ := Option.map_eq_some_iff.mp member
    obtain ⟨first, rfl, rfl⟩ := Option.map_eq_some_iff.mp same
    have start : ∀ place, first.lodging = some place → n.lodging c = some place ∨
        a = .weakInvoke c ∧ place = (x, none) := by
      intro place placed
      have before : (n.callsBefore a)[c]?.join.bind WeakSignalCall.lodging = some place := by
        simp only [earlier, Option.join_some, Option.bind_some, placed]
      rcases callsBefore_lodging before with old | ⟨call, rfl, set, rfl⟩
      · exact .inl old
      · cases taken with
        | weakInvoke _ _ set' promoted =>
            cases set.symm.trans set'
            exact .inr ⟨rfl, rfl⟩
    unfold arrives at lodged
    split at lodged
    · rename_i arrived
      obtain ⟨here, locking, more⟩ := arrived
      have onTheWay : first.lodging = some (x, none) := by
        simp only [WeakSignalCall.lodging, locking, here]
      have now : lodging = (x, some w.invocations.length) := by
        rw [← Option.some.inj lodged, here]
      subst now
      apply Lodges.arrives
      · rcases start _ onTheWay with old | ⟨first, _⟩
        · exact .inl old
        · exact .inr first
      · exact more
    · rename_i elsewhere
      have still : first.lodging = some (x, none) →
          ¬ w.invocations.length < w'.invocations.length := by
        intro onTheWay more
        apply elsewhere
        unfold WeakSignalCall.lodging at onTheWay
        split at onTheWay
        · cases onTheWay
        · rename_i locking
          cases onTheWay
          exact ⟨rfl, locking, more⟩
        · cases onTheWay
      rcases start lodging lodged with old | ⟨first, rfl⟩
      · obtain ⟨y, place⟩ := lodging
        apply Lodges.stays y place old
        rintro rfl rfl
        exact still lodged
      · exact .sets first (still lodged)
  · rw [callsFrom_lodging (List.mem_of_getElem? member)] at lodged
    cases lodged

theorem Takes.of_weakInvoke {c : CallId} {b : Action σ} (taken : n.Takes (.weakInvoke c) x b) :
    b = .invoke := by
  cases taken
  rfl

theorem Lodged.takes (lodged : n.Lodged) {b : Action σ} (taken : n.Takes a x b)
    (found : n.impls[x]? = some w) (stepped : w.step b = some w') :
    { n with
      impls := n.impls.set x w'
      calls := (n.callsBefore a).map (Option.map (arrives x w w')) ++
        callsFrom x w b w' }.Lodged := by
  have inside := (List.getElem?_eq_some_iff.mp found).1
  have effect := (World.step_effect stepped).2
  have busy : ∀ c, n.lodging c = some (x, none) → w.sweepFor = some .invoke := by
    intro c onTheWay
    obtain ⟨u, there, going⟩ := lodged.housed c x none onTheWay
    cases found.symm.trans there
    exact going
  have free : ∀ c, a = .weakInvoke c → w.sweepFor = none := by
    rintro c rfl
    have b_eq := taken.of_weakInvoke
    subst b_eq
    exact World.sweepFor_of_free (World.invoke_begins stepped).1
  constructor
  · intro c y place lodges
    have now := taken.lodges lodges
    cases now with
    | stays y place before still =>
        obtain ⟨u, there, houses⟩ := lodged.housed c y place before
        by_cases same : x = y
        · subst same
          cases found.symm.trans there
          refine ⟨w', List.getElem?_set_self inside, ?_⟩
          cases place with
          | none =>
              have going : w.sweepFor = some .invoke := houses
              have taken : w.critical ≠ none := by
                intro idle
                rw [World.sweepFor_of_free idle] at going
                cases going
              rcases effect.sweeps taken with kept | ⟨_, more⟩
              · exact kept.trans going
              · rw [more going] at still
                exact absurd (Nat.lt_succ_self _) (still rfl rfl)
          | some i => exact Nat.lt_of_lt_of_le houses effect.change.joins
        · exact ⟨u, (List.getElem?_set_ne same).trans there, houses⟩
    | sets first still =>
        refine ⟨w', List.getElem?_set_self inside, ?_⟩
        subst first
        have b_eq := taken.of_weakInvoke
        subst b_eq
        rcases (World.invoke_begins stepped).2 with more | going
        · exact absurd more still
        · exact going
    | arrives before more => exact ⟨w', List.getElem?_set_self inside, more⟩
  · intro c d lodging lodges lodges'
    have now := taken.lodges lodges
    have now' := taken.lodges lodges'
    cases now with
    | stays y place before still =>
        cases now' with
        | stays _ _ before' still' => exact lodged.own c d _ before before'
        | sets first still' =>
            have going := busy c before
            rw [free d first] at going
            cases going
        | arrives before' more =>
            obtain ⟨u, there, houses⟩ := lodged.housed c _ _ before
            cases found.symm.trans there
            exact absurd houses (Nat.lt_irrefl _)
    | sets first still =>
        cases now' with
        | stays _ _ before' still' =>
            have going := busy d before'
            rw [free c first] at going
            cases going
        | sets first' still' =>
            rw [first] at first'
            cases first'
            rfl
    | arrives before more =>
        cases now' with
        | stays _ _ before' still' =>
            obtain ⟨u, there, houses⟩ := lodged.housed d _ _ before'
            cases found.symm.trans there
            exact absurd houses (Nat.lt_irrefl _)
        | arrives before' more' =>
            rcases before with onTheWay | first
            · rcases before' with onTheWay' | first'
              · exact lodged.own c d _ onTheWay onTheWay'
              · have going := busy c onTheWay
                rw [free d first'] at going
                cases going
            · rcases before' with onTheWay' | first'
              · have going := busy d onTheWay'
                rw [free c first] at going
                cases going
              · rw [first] at first'
                cases first'
                rfl

theorem returns_lodging {c d : CallId} {entry : Option WeakSignalCall}
    {place : ImplId × Option InvocationId} (found : n.calls[c]? = some entry)
    (placed : { n with calls := n.calls.set c none }.lodging d = some place) :
    n.lodging d = some place := by
  by_cases same : c = d
  · subst same
    simp [lodging, List.getElem?_set_self (List.getElem?_eq_some_iff.mp found).1] at placed
  · simpa only [lodging, List.getElem?_set_ne same] using placed

theorem Lodged.step (lodged : n.Lodged) (acted : Acted n a n') : n'.collect.Lodged := by
  have settled : n'.Lodged → n'.collect.Lodged := by
    intro before
    constructor
    · intro c x place found
      obtain ⟨w, there, houses⟩ := before.housed c x place found
      refine ⟨n'.settle x w, ?_, ?_⟩
      · rw [collect_impls, there]
        rfl
      · cases place with
        | none => exact houses
        | some i => exact houses
    · exact before.own
  apply settled
  cases acted with
  | constructs combiner defaultCompare groupCompare =>
      constructor
      · intro c x place found
        obtain ⟨w, there, houses⟩ := lodged.housed c x place found
        have inside := (List.getElem?_eq_some_iff.mp there).1
        exact ⟨w, (List.getElem?_append_left inside).trans there, houses⟩
      · exact lodged.own
  | takes x b w w' taken found stepped => exact lodged.takes taken found stepped
  | returns c call i w found stage there done =>
      constructor
      · intro d x place placed
        exact lodged.housed d x place (returns_lodging found placed)
      · intro d e place placed placed'
        exact lodged.own d e place (returns_lodging found placed) (returns_lodging found placed')
  | _ => exact ⟨lodged.housed, lodged.own⟩

/-- Whatever happens elsewhere, each signal of a network goes through a run of its own, in
which nothing fails. -/
theorem signals_of_networks {owners : ObjectId → Nat} {actions : List (NetworkAction σ)}
    (guarded : Runs.Guarded SignalNetwork.step Careful (start owners) actions)
    (ran : Runs.run SignalNetwork.step (start owners) actions = some n) :
    n.nullPimpl = false ∧ ∀ w ∈ n.impls, w.fault = none ∧ w.Came := by
  have sound : n.Sound := Runs.run_invariant
    (fun _ _ _ sound careful stepped => sound.step careful stepped) (start_sound owners) guarded ran
  constructor
  · exact sound.noNull
  · intro w member
    obtain ⟨x, found⟩ := List.mem_iff_getElem?.mp member
    have came := sound.came x w found
    obtain ⟨compare, order, steady⟩ := came.steady
    exact ⟨steady.sound, came⟩

/-- What networks that are used with care keep. -/
structure Chained (n : SignalNetwork σ) : Prop where
  sound : n.Sound
  waiting : n.Waiting
  lodged : n.Lodged

theorem start_chained (owners : ObjectId → Nat) : (start owners : SignalNetwork σ).Chained where
  sound := start_sound owners
  waiting :=
    { running := by intro x i calling; cases calling
      single := List.nodup_nil }
  lodged := start_lodged owners

theorem Chained.step (chained : n.Chained) (careful : n.Careful a) (stepped : n.step a = some n') :
    n'.Chained := by
  have sound := chained.sound.step careful stepped
  obtain ⟨_, acted, taken, rfl⟩ := step_acted stepped
  exact {
    sound := sound
    waiting := (chained.waiting.step chained.sound taken).collect
    lodged := chained.lodged.step taken }

/-- Whatever becomes of the signal objects, a signal that is called as a slot is there as long
as the call lasts, and its caller waits; each call comes to an invocation of its own.  An
implementation is there exactly as long as somebody owns it, and no two signal objects own
the same. -/
theorem chained_calls_safe {owners : ObjectId → Nat} {actions : List (NetworkAction σ)}
    (guarded : Runs.Guarded SignalNetwork.step Careful (start owners) actions)
    (ran : Runs.run SignalNetwork.step (start owners) actions = some n) :
    (∀ call, some call ∈ n.calls →
        ∃ w, n.impls[call.sharedPimpl]? = some w ∧ w.heap.impl ≠ none) ∧
      n.Waiting ∧ n.Lodged ∧ n.Unshared ∧
      ∀ (x : ImplId) w, n.impls[x]? = some w →
        (w.heap.impl ≠ none ↔ n.owned (pimplObject x) = true) := by
  have chained : n.Chained := Runs.run_invariant
    (fun _ _ _ chained careful stepped => chained.step careful stepped) (start_chained owners)
    guarded ran
  have sound := chained.sound
  constructor
  · intro call member
    have there := List.getElem?_eq_getElem (sound.known.calls call member)
    exact ⟨_, there, sound.linked.kept member there⟩
  · refine ⟨chained.waiting, chained.lodged, sound.linked.single, ?_⟩
    intro x w found
    have born := born_pimplObject.mpr (List.getElem?_eq_some_iff.mp found).1
    rw [ne_eq, sound.linked.present x w found, lost, born]
    simp

/-- Evaluates `Careful`, but for the construction of signals. -/
def careful (n : SignalNetwork σ) : NetworkAction σ → Bool
  | .constructSignal _ _ _ => false
  | .call this b =>
      (n.pimpl this != some none || b.testsPimpl) &&
        match b with
        | .setCombiner _ => false
        | _ => true
  | .proceed x b =>
      n.calls.reduceOption.any (fun call => call.sharedPimpl == x) ||
        n.impls[x]?.all fun w => w.spared b
  | _ => true

theorem careful_of_check (holds : n.careful a = true) : n.Careful a := by
  cases a with
  | constructSignal combiner defaultCompare groupCompare => cases holds
  | call this b =>
      obtain ⟨used, kind⟩ := Bool.and_eq_true_iff.mp holds
      constructor
      · intro null
        simpa [null] using used
      · rintro combiner rfl
        cases kind
  | proceed x b =>
      rcases Bool.or_eq_true_iff.mp holds with calling | spared
      · left
        obtain ⟨call, member, same⟩ := List.any_eq_true.mp calling
        exact ⟨call, List.reduceOption_mem_iff.mp member, beq_iff_eq.mp same⟩
      · right
        intro w found
        rw [found] at spared
        exact World.Spared.of_check spared
  | _ => trivial

end SignalNetwork

def natNetwork : SignalNetwork natSignal := SignalNetwork.start fun _ => 0

def newSignal : NetworkAction natSignal :=
  .constructSignal 0 (fun a b : Nat => decide (a < b)) fun a b => decide (a < b)

theorem newSignal_careful (n : SignalNetwork natSignal) : n.Careful newSignal :=
  ⟨natLess_strictWeak, fun _ _ => rfl⟩

theorem network_guarded {guard : SignalNetwork natSignal → NetworkAction natSignal → Prop}
    {check : SignalNetwork natSignal → NetworkAction natSignal → Bool}
    {later : List (NetworkAction natSignal)} (new : ∀ n, guard n newSignal)
    (checks : ∀ n a, check n a = true → guard n a)
    (holds : (Runs.run SignalNetwork.step natNetwork [newSignal, newSignal]).map
      (fun n => Runs.checked SignalNetwork.step check n later) = some true) :
    Runs.Guarded SignalNetwork.step guard natNetwork ([newSignal, newSignal] ++ later) := by
  obtain ⟨n, ran, held⟩ := Option.map_eq_some_iff.mp holds
  apply (Runs.guarded_append ran).mpr
  constructor
  · exact ⟨new _, fun _ _ => ⟨new _, fun _ _ => trivial⟩⟩
  · exact .of_checked checks held

theorem network_careful {later : List (NetworkAction natSignal)}
    (holds : (Runs.run SignalNetwork.step natNetwork [newSignal, newSignal]).map
      (fun n => Runs.checked SignalNetwork.step SignalNetwork.careful n later) = some true) :
    Runs.Guarded SignalNetwork.step SignalNetwork.Careful natNetwork
      ([newSignal, newSignal] ++ later) :=
  network_guarded newSignal_careful (fun _ _ => SignalNetwork.careful_of_check) holds

/-- Two signals; the second has three slots and is a slot of the first. -/
def connectSignals : List (NetworkAction natSignal) :=
  [.call 0 (.connect { group := none, slot := .ofSignal (pimplObject 1), position := .atBack }),
    .proceed 0 .section, .call 1 (connectBack 10), .proceed 1 .section, .call 1 (connectBack 11),
    .proceed 1 .section, .proceed 1 .section, .call 1 (connectBack 12), .proceed 1 .section,
    .proceed 1 .section, .proceed 1 .section]

/-- The first signal calls the second, whose first slot disconnects the two others and
destroys the signal object.  Its janitor still has an implementation to clean up. -/
def callAndDestroy : List (NetworkAction natSignal) :=
  [.call 0 .invoke, .proceed 0 .section, .proceed 0 .section, .proceed 0 (.lockNext 0),
    .proceed 0 .section, .proceed 0 .section, .proceed 0 .section, .proceed 0 (.dereference 0),
    .weakInvoke 0, .proceed 1 .section, .proceed 1 .section, .proceed 1 (.lockNext 0),
    .proceed 1 .section, .proceed 1 (.dereference 0), .destroySignal 1,
    .proceed 1 (.disconnect 1), .proceed 1 (.disconnect 2), .proceed 1 (.slotReturns 0 5),
    .proceed 1 (.increment 0), .proceed 1 (.lockNext 0), .proceed 1 .section,
    .proceed 1 (.lockNext 0), .proceed 1 .section, .proceed 1 (.reachEnd 0),
    .proceed 1 (.finish 0), .proceed 1 (.janitor 0), .proceed 1 .section, .proceed 1 .section,
    .proceed 1 .section, .proceed 1 .section, .proceed 1 (.destroyCache 0),
    .proceed 1 (.releaseState 0)]

/-- The call returns, and the last owner lets go. -/
def returnToFirst : List (NetworkAction natSignal) :=
  [.weakReturn 0, .proceed 0 (.slotReturns 0 5), .proceed 0 (.increment 0),
    .proceed 0 (.reachEnd 0), .proceed 0 (.finish 0), .proceed 0 (.janitor 0),
    .proceed 0 (.destroyCache 0), .proceed 0 (.clearTracked 0), .proceed 0 (.releaseState 0)]

theorem callAndDestroy_safe :
    ∃ (n : SignalNetwork natSignal) (call : WeakSignalCall) (w : World natSignal),
      Runs.run SignalNetwork.step natNetwork
        ([newSignal, newSignal] ++ (connectSignals ++ callAndDestroy)) = some n ∧
      n.pimpl 1 = none ∧ some call ∈ n.calls ∧ n.impls[call.sharedPimpl]? = some w ∧
      w.phaseOf 0 = some .done ∧ w.heap.impl ≠ none := by
  have ends : (Runs.run SignalNetwork.step natNetwork
      ([newSignal, newSignal] ++ (connectSignals ++ callAndDestroy))).map
        (fun n => (n.pimpl 1, n.calls.map (Option.map WeakSignalCall.sharedPimpl),
          n.impls[1]?.bind fun w => w.phaseOf 0)) =
      some (none, [some 1], some .done) := by decide +kernel
  obtain ⟨n, ran, facts⟩ := Option.map_eq_some_iff.mp ends
  have destroyed := congrArg Prod.fst facts
  have calls := congrArg (fun t => t.2.1) facts
  have done := congrArg (fun t => t.2.2) facts
  simp only at destroyed calls done
  obtain ⟨c, member, same⟩ := List.mem_map.mp (calls ▸ List.mem_cons_self)
  obtain ⟨call, rfl, target⟩ := Option.map_eq_some_iff.mp same
  obtain ⟨w, found, phase⟩ := Option.bind_eq_some_iff.mp done
  rw [← target] at found
  have guarded : Runs.Guarded SignalNetwork.step SignalNetwork.Careful natNetwork
      ([newSignal, newSignal] ++ (connectSignals ++ callAndDestroy)) :=
    network_careful (by decide +kernel)
  obtain ⟨w', found', there⟩ := (SignalNetwork.chained_calls_safe guarded ran).1 call member
  cases found.symm.trans found'
  exact ⟨n, call, w, ran, destroyed, member, found, phase, there⟩

theorem returnToFirst_sound :
    ∃ n : SignalNetwork natSignal,
      Runs.run SignalNetwork.step natNetwork
        ([newSignal, newSignal] ++ (connectSignals ++ callAndDestroy ++ returnToFirst)) = some n ∧
      n.impls.map (fun w => w.heap.impl.isSome) = [true, false] ∧
      n.nullPimpl = false ∧ ∀ w ∈ n.impls, w.fault = none ∧ w.Came := by
  have ends : (Runs.run SignalNetwork.step natNetwork
      ([newSignal, newSignal] ++ (connectSignals ++ callAndDestroy ++ returnToFirst))).map
        (fun n => n.impls.map fun w => w.heap.impl.isSome) = some [true, false] := by
    decide +kernel
  obtain ⟨n, ran, there⟩ := Option.map_eq_some_iff.mp ends
  refine ⟨n, ran, there, SignalNetwork.signals_of_networks (network_careful ?_) ran⟩
  decide +kernel

end Signals2
