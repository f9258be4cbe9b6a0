/-
Several signals together.  A signal object owns the implementation that it was constructed
with until it is destroyed, moved from or assigned to.  A signal connected as a slot of
another one is called through a weak reference, which the call promotes for as long as it
lasts.  At each signal the machine of one signal runs; what is added here are the references
between the signals, and the end of an implementation that nothing refers to any more.
-/

import Mathlib.Data.List.ReduceOption
import Signals2.SteadyRuns

namespace Signals2

abbrev ImplId := Nat
abbrev SignalId := Nat
abbrev CallId := Nat

/-- An implementation among the objects that slots track; those with odd numbers are other
objects. -/
def pimplObject (x : ImplId) : ObjectId := 2 * x

def pimplOf (o : ObjectId) : Option ImplId := if o % 2 = 0 then some (o / 2) else none

/-- How far `weak_signal::operator()` has come: the reference is promoted, the invocation
is under way to its copy of the list, or it is this one. -/
inductive CallStage where
  | promoted
  | locking
  | invoked (i : InvocationId)
deriving DecidableEq, Repr

structure WeakSignalCall where
  caller : ImplId
  invocation : InvocationId
  sharedPimpl : ImplId
  stage : CallStage

/-- A signal object holds its pimpl, which is null when it has been moved from; the entries
of objects that are destroyed and of calls that have returned are empty.  `σ` has the groups,
functions, combiners and results of all signals. -/
structure SignalNetwork (σ : SignalTemplate) where
  impls : List (World σ)
  signals : List (Option (Option ImplId))
  calls : List (Option WeakSignalCall)
  owners : ObjectId → Nat
  nullPimpl : Bool

inductive NetworkAction (σ : SignalTemplate) where
  -- signal objects
  | constructSignal (combiner : σ.Combiner) (defaultCompare groupCompare : σ.Group → σ.Group → Bool)
  | moveConstruct (other : SignalId)
  | moveAssign (this rhs : SignalId)
  | swap (this other : SignalId)
  | destroySignal (this : SignalId)
  -- member functions of a signal object
  | call (this : SignalId) (a : Action σ)
  -- what has begun goes on, and what needs no signal object
  | proceed (x : ImplId) (a : Action σ)
  -- calls through weak references
  | weakInvoke (c : CallId)
  | weakReturn (c : CallId)
  -- owners of other objects
  | acquire (o : ObjectId)
  | drop (o : ObjectId)

variable {σ : SignalTemplate}

/-- A member function of the signal, with the part of it that comes first. -/
def Action.ofSignal : Action σ → Bool
  | .connect _ | .setCombiner _ | .invoke | .traverse _ => true
  | _ => false

/-- These return at once when the pimpl is null. -/
def Action.testsPimpl : Action σ → Bool
  | .traverse _ => true
  | _ => false

/-- The signal that a slot refers to. -/
def Slot.weakSignal (slot : Slot σ) : Option ImplId :=
  match slot.slotFunction.target with
  | .functor _ => none
  | .weakSignal weakPimpl => pimplOf weakPimpl

namespace World

variable (w : World σ)

/-- Strong references inside the library. -/
def held : List ObjectId :=
  w.invocations.flatMap (fun inv => inv.trackedPtrs.reduceOption) ++ w.lockedObject.toList

/-- The signal that the slot at the iterator of an invocation refers to. -/
def weakTarget (i : InvocationId) : Option ImplId :=
  w.invocations[i]?.bind fun inv => (w.bodyAt inv.localState inv.iter).bind fun b =>
    (w.bodies b).slot.bind Slot.weakSignal

end World

namespace SignalNetwork

variable (n : SignalNetwork σ)

def start (owners : ObjectId → Nat) : SignalNetwork σ :=
  { impls := []
    signals := []
    calls := []
    owners := owners
    nullPimpl := false }

/-! ### Owners -/

/-- The strong references of signal objects, of calls through weak references, and of the
operations of all signals. -/
def referred : List ObjectId :=
  (n.signals.reduceOption.reduceOption ++
      n.calls.reduceOption.map WeakSignalCall.sharedPimpl).map pimplObject ++
    n.impls.flatMap World.held

def owned (o : ObjectId) : Bool := 0 < n.owners o || n.referred.contains o

/-- The object has been made, if it is a signal. -/
def born (o : ObjectId) : Bool :=
  match pimplOf o with
  | none => true
  | some x => x < n.impls.length

def lost (o : ObjectId) : Bool := n.born o && !n.owned o

/-- What every signal finds when it asks for the owners of an object. -/
def ownersSeen (o : ObjectId) : Nat := if n.lost o then 0 else 1

/-- An implementation that has lost its last owner is destroyed. -/
def settle (x : ImplId) (w : World σ) : World σ :=
  { w with
    owners := n.ownersSeen
    heap := if n.lost (pimplObject x) then { w.heap with impl := none } else w.heap }

def collect : SignalNetwork σ := { n with impls := n.impls.mapIdx n.settle }

/-! ### Signal objects -/

def constructSignal (combiner : σ.Combiner)
    (defaultCompare groupCompare : σ.Group → σ.Group → Bool) : SignalNetwork σ :=
  { n with
    impls := n.impls ++ [World.construct combiner defaultCompare groupCompare n.ownersSeen]
    signals := n.signals ++ [some (some n.impls.length)] }

/-- The pimpl of an object that exists. -/
def pimpl (this : SignalId) : Option (Option ImplId) := n.signals[this]?.join

def moveConstruct (other : SignalId) : Option (SignalNetwork σ) :=
  (n.pimpl other).map fun taken =>
    { n with signals := n.signals.set other (some none) ++ [some taken] }

def moveAssign (this rhs : SignalId) : Option (SignalNetwork σ) :=
  match n.pimpl this, n.pimpl rhs with
  | some _, some taken =>
      if this = rhs then some n
      else some { n with signals := (n.signals.set this (some taken)).set rhs (some none) }
  | _, _ => none

def swap (this other : SignalId) : Option (SignalNetwork σ) :=
  match n.pimpl this, n.pimpl other with
  | some own, some taken =>
      some { n with signals := (n.signals.set this (some taken)).set other (some own) }
  | _, _ => none

def destroySignal (this : SignalId) : Option (SignalNetwork σ) :=
  (n.pimpl this).map fun _ => { n with signals := n.signals.set this none }

/-! ### Steps at a signal -/

/-- A slot that is called may be another signal. -/
def callsFrom (x : ImplId) (w : World σ) (a : Action σ) (w' : World σ) :
    List (Option WeakSignalCall) :=
  match a with
  | .dereference i =>
      match w.weakTarget i with
      | none => []
      | some y =>
          if w'.phaseOf i = some .running then
            [some { caller := x, invocation := i, sharedPimpl := y, stage := .promoted }]
          else []
  | _ => []

/-- The invocation that a step has added is that of the call which was on its way there. -/
def arrives (x : ImplId) (w w' : World σ) (call : WeakSignalCall) : WeakSignalCall :=
  if call.sharedPimpl = x ∧ call.stage = .locking ∧
      w.invocations.length < w'.invocations.length then
    { call with stage := .invoked w.invocations.length }
  else call

def stepImpl (x : ImplId) (a : Action σ) : Option (SignalNetwork σ) :=
  match n.impls[x]? with
  | none => none
  | some w =>
      (w.step a).map fun w' =>
        { n with
          impls := n.impls.set x w'
          calls := n.calls.map (Option.map (arrives x w w')) ++ callsFrom x w a w' }

/-- What a slot may track, and refer to; the weak reference to a null signal is empty. -/
def accepts (slot : Slot σ) : Bool :=
  slot.trackedObjects.all (fun p => n.born p.object) &&
    match slot.slotFunction.target with
    | .functor _ => true
    | .weakSignal weakPimpl => (pimplOf weakPimpl).isSome || !n.owned weakPimpl

def acceptable : Action σ → Bool
  | .connect arguments => n.accepts arguments.slot
  | _ => true

/-- A member function called on a signal object. -/
def call (this : SignalId) (a : Action σ) : Option (SignalNetwork σ) :=
  if a.ofSignal = true ∧ n.acceptable a = true then
    match n.pimpl this with
    | none => none
    | some none => some (if a.testsPimpl then n else { n with nullPimpl := true })
    | some (some x) => n.stepImpl x a
  else none

/-- The slot function has not come back from the signal that it calls. -/
def awaiting (x : ImplId) : Action σ → Bool
  | .slotReturns i _ | .slotThrows i _ =>
      n.calls.reduceOption.any fun call => call.caller == x && call.invocation == i
  | _ => false

def proceed (x : ImplId) (a : Action σ) : Option (SignalNetwork σ) :=
  if a.ofSignal = true ∨ a.ofOwner = true ∨ n.awaiting x a = true then none else n.stepImpl x a

/-! ### Calls through weak references -/

def setStage (c : CallId) (call : WeakSignalCall) (stage : CallStage) : SignalNetwork σ :=
  { n with calls := n.calls.set c (some { call with stage }) }

def weakInvoke (c : CallId) : Option (SignalNetwork σ) :=
  match n.calls[c]?.join with
  | none => none
  | some call =>
      if call.stage = .promoted then (n.setStage c call .locking).stepImpl call.sharedPimpl .invoke
      else none

def weakReturn (c : CallId) : Option (SignalNetwork σ) :=
  match n.calls[c]?.join with
  | none => none
  | some call =>
      match call.stage with
      | .invoked i =>
          if n.impls[call.sharedPimpl]?.any fun w => w.phaseOf i == some .done then
            some { n with calls := n.calls.set c none }
          else none
      | _ => none

/-! ### The machine -/

/-- Nobody outside has a strong reference to an implementation. -/
def acquire (o : ObjectId) : Option (SignalNetwork σ) :=
  if pimplOf o = none ∧ n.owned o = true then
    some { n with owners := Function.update n.owners o (n.owners o + 1) }
  else none

def drop (o : ObjectId) : Option (SignalNetwork σ) :=
  if 0 < n.owners o then
    some { n with owners := Function.update n.owners o (n.owners o - 1) }
  else none

def act : NetworkAction σ → Option (SignalNetwork σ)
  | .constructSignal combiner defaultCompare groupCompare =>
      some (n.constructSignal combiner defaultCompare groupCompare)
  | .moveConstruct other => n.moveConstruct other
  | .moveAssign this rhs => n.moveAssign this rhs
  | .swap this other => n.swap this other
  | .destroySignal this => n.destroySignal this
  | .call this a => n.call this a
  | .proceed x a => n.proceed x a
  | .weakInvoke c => n.weakInvoke c
  | .weakReturn c => n.weakReturn c
  | .acquire o => n.acquire o
  | .drop o => n.drop o

/-- No step follows the use of a null pimpl. -/
def step (n : SignalNetwork σ) (action : NetworkAction σ) : Option (SignalNetwork σ) :=
  if n.nullPimpl then none else (n.act action).map collect

end SignalNetwork

/-! ### What a step refers to -/

theorem pimplOf_pimplObject (x : ImplId) : pimplOf (pimplObject x) = some x := by
  simp [pimplOf, pimplObject]

theorem pimplObject_of_pimplOf {o : ObjectId} {x : ImplId} (found : pimplOf o = some x) :
    pimplObject x = o := by
  unfold pimplOf at found
  split at found
  · rename_i even
    cases found
    exact Nat.mul_div_cancel' (Nat.dvd_of_mod_eq_zero even)
  · cases found

namespace World

variable {w w' : World σ} {a : Action σ}

theorem mem_held {o : ObjectId} : o ∈ w.held ↔
    (∃ inv ∈ w.invocations, some o ∈ inv.trackedPtrs) ∨ w.lockedObject = some o := by
  simp [held, List.reduceOption_mem_iff]

theorem owned_iff_held {o : ObjectId} : w.owned o = true ↔ 0 < w.owners o ∨ o ∈ w.held := by
  rw [owned_iff, mem_held]

/-- A call of a slot promotes the weak reference that it goes through. -/
theorem weakTarget_owned {i : InvocationId} {y : ImplId}
    (stepped : w.step (.dereference i) = some w') (target : w.weakTarget i = some y)
    (running : w'.phaseOf i = some .running) : w.owned (pimplObject y) = true := by
  have sound := (step_effect stepped).1
  simp only [World.step, sound, Option.isSome_none, Bool.false_eq_true, if_false,
    World.dereference] at stepped
  split at stepped
  · cases stepped
  · rename_i inv found
    split at stepped
    · rename_i ready
      have idle : w.phaseOf i ≠ some .running := by
        simp [World.phaseOf, found, ready.1]
      split at stepped
      · cases stepped
        exact absurd running idle
      · split at stepped
        · cases stepped
          exact absurd running idle
        · rename_i b here
          split at stepped
          · cases stepped
            exact absurd running idle
          · rename_i slot held
            simp only [World.weakTarget, found, here, held, Option.bind_some, Slot.weakSignal]
              at target
            split at stepped
            · rename_i function kind
              rw [kind] at target
              cases target
            · rename_i weakPimpl kind
              rw [kind] at target
              rw [pimplObject_of_pimplOf target]
              split at stepped
              · rename_i owned
                exact owned
              · cases stepped
                exact absurd running idle
    · cases stepped

end World

namespace SignalNetwork

variable {n n' : SignalNetwork σ} {o : ObjectId} {x : ImplId} {w : World σ}

theorem mem_referred : o ∈ n.referred ↔
    (∃ x, some (some x) ∈ n.signals ∧ pimplObject x = o) ∨
      (∃ call, some call ∈ n.calls ∧ pimplObject call.sharedPimpl = o) ∨
      ∃ w ∈ n.impls, o ∈ w.held := by
  simp only [referred, List.mem_append, List.mem_map, List.mem_flatMap, List.reduceOption_mem_iff,
    or_and_right, exists_or, or_assoc]
  constructor
  · rintro (⟨x, pointed, same⟩ | ⟨y, ⟨call, member, rfl⟩, same⟩ | held)
    · exact .inl ⟨x, pointed, same⟩
    · exact .inr (.inl ⟨call, member, same⟩)
    · exact .inr (.inr held)
  · rintro (⟨x, pointed, same⟩ | ⟨call, member, same⟩ | held)
    · exact .inl ⟨x, pointed, same⟩
    · exact .inr (.inl ⟨_, ⟨call, member, rfl⟩, same⟩)
    · exact .inr (.inr held)

theorem lost_iff : n.lost o = true ↔ n.born o = true ∧ n.owners o = 0 ∧ o ∉ n.referred := by
  simp [lost, owned]

theorem not_lost_of_referred (referred : o ∈ n.referred) : n.lost o = false := by
  simp [lost, owned, referred]

theorem born_pimplObject : n.born (pimplObject x) = true ↔ x < n.impls.length := by
  simp [born, pimplOf_pimplObject]

theorem collect_impls : n.collect.impls[x]? = n.impls[x]?.map (n.settle x) :=
  List.getElem?_mapIdx

theorem collect_referred : o ∈ n.collect.referred ↔ o ∈ n.referred := by
  have held : (∃ w ∈ n.collect.impls, o ∈ w.held) ↔ ∃ w ∈ n.impls, o ∈ w.held := by
    constructor
    · rintro ⟨w, member, held⟩
      obtain ⟨x, found⟩ := List.mem_iff_getElem?.mp member
      rw [collect_impls] at found
      obtain ⟨old, before, rfl⟩ := Option.map_eq_some_iff.mp found
      exact ⟨old, List.mem_of_getElem? before, held⟩
    · rintro ⟨w, member, held⟩
      obtain ⟨x, found⟩ := List.mem_iff_getElem?.mp member
      have settled : n.collect.impls[x]? = some (n.settle x w) := by
        rw [collect_impls, found]
        rfl
      exact ⟨n.settle x w, List.mem_of_getElem? settled, held⟩
  rw [mem_referred, mem_referred, held]
  exact Iff.rfl

theorem collect_lost : n.collect.lost o = n.lost o := by
  apply Bool.eq_iff_iff.mpr
  have length : n.collect.impls.length = n.impls.length := List.length_mapIdx
  have born : n.collect.born o = n.born o := by
    simp only [SignalNetwork.born, length]
  rw [lost_iff, lost_iff, collect_referred, born]
  exact Iff.rfl

theorem collect_ownersSeen : n.collect.ownersSeen = n.ownersSeen := by
  funext o
  simp only [ownersSeen, collect_lost]

/-! ### What has been lost stays lost -/

/-- No two signal objects have the same implementation. -/
def Unshared (n : SignalNetwork σ) : Prop :=
  ∀ this other x, n.pimpl this = some (some x) → n.pimpl other = some (some x) → this = other

/-- Every implementation knows the owners that the network has, and is there as long as it
has one. -/
structure Linked (n : SignalNetwork σ) : Prop where
  seen : ∀ (x : ImplId) w, n.impls[x]? = some w → w.owners = n.ownersSeen
  present : ∀ (x : ImplId) w, n.impls[x]? = some w →
    (w.heap.impl = none ↔ n.lost (pimplObject x) = true)
  pointed : ∀ this x, n.pimpl this = some (some x) → x < n.impls.length
  single : n.Unshared

theorem start_linked (owners : ObjectId → Nat) : (start owners : SignalNetwork σ).Linked where
  seen x w found := by cases found
  present x w found := by cases found
  pointed this x points := by cases points
  single this other x points := by cases points

theorem Linked.owned_at (linked : n.Linked) (found : n.impls[x]? = some w) :
    w.owned o = true ↔ n.lost o = false := by
  rw [World.owned_iff_held, linked.seen x w found, ownersSeen]
  constructor
  · rintro (positive | held)
    · cases lost : n.lost o with
      | false => rfl
      | true => simp [lost] at positive
    · have member := List.mem_of_getElem? found
      exact not_lost_of_referred (mem_referred.mpr (.inr (.inr ⟨w, member, held⟩)))
  · intro kept
    simp [kept]

/-! ### Every step is one of these -/

/-- What a step of the network does at one signal. -/
inductive Takes (n : SignalNetwork σ) : NetworkAction σ → ImplId → Action σ → Prop
  | call (this : SignalId) (x : ImplId) (a : Action σ) (own : n.pimpl this = some (some x))
      (ofSignal : a.ofSignal = true) (acceptable : n.acceptable a = true) :
      Takes n (.call this a) x a
  | proceed (x : ImplId) (a : Action σ) (notSignal : a.ofSignal = false)
      (notOwner : a.ofOwner = false) (back : n.awaiting x a = false) : Takes n (.proceed x a) x a
  | weakInvoke (c : CallId) (call : WeakSignalCall) (found : n.calls[c]? = some (some call))
      (promoted : call.stage = .promoted) : Takes n (.weakInvoke c) call.sharedPimpl .invoke

/-- The calls when a step at one signal begins. -/
def callsBefore (n : SignalNetwork σ) : NetworkAction σ → List (Option WeakSignalCall)
  | .weakInvoke c =>
      match n.calls[c]?.join with
      | none => n.calls
      | some call => n.calls.set c (some { call with stage := .locking })
  | _ => n.calls

/-- A step before the implementations that are lost in it are destroyed. -/
inductive Acted (n : SignalNetwork σ) : NetworkAction σ → SignalNetwork σ → Prop
  | constructs (combiner : σ.Combiner) (defaultCompare groupCompare : σ.Group → σ.Group → Bool) :
      Acted n (.constructSignal combiner defaultCompare groupCompare)
        (n.constructSignal combiner defaultCompare groupCompare)
  | objects {a : NetworkAction σ} (signals : List (Option (Option ImplId)))
      (pointed : ∀ this x, { n with signals }.pimpl this = some (some x) →
        ∃ other, n.pimpl other = some (some x))
      (single : n.Unshared → { n with signals }.Unshared) : Acted n a { n with signals }
  | takes {a : NetworkAction σ} (x : ImplId) (b : Action σ) (w w' : World σ)
      (taken : n.Takes a x b) (found : n.impls[x]? = some w) (stepped : w.step b = some w') :
      Acted n a { n with
        impls := n.impls.set x w'
        calls := (n.callsBefore a).map (Option.map (arrives x w w')) ++ callsFrom x w b w' }
  | null (this : SignalId) (b : Action σ) (points : n.pimpl this = some none)
      (uses : b.testsPimpl = false) : Acted n (.call this b) { n with nullPimpl := true }
  | nothing {a : NetworkAction σ} : Acted n a n
  | returns (c : CallId) (call : WeakSignalCall) (i : InvocationId) (w : World σ)
      (found : n.calls[c]? = some (some call)) (stage : call.stage = .invoked i)
      (there : n.impls[call.sharedPimpl]? = some w) (done : w.phaseOf i = some .done) :
      Acted n (.weakReturn c) { n with calls := n.calls.set c none }
  | acquires (o : ObjectId) (other : pimplOf o = none) (owned : n.owned o = true) :
      Acted n (.acquire o) { n with owners := Function.update n.owners o (n.owners o + 1) }
  | drops (o : ObjectId) (some : 0 < n.owners o) :
      Acted n (.drop o) { n with owners := Function.update n.owners o (n.owners o - 1) }

theorem pimpl_set {this other : SignalId} {object : Option (Option ImplId)} {v : Option ImplId}
    (there : n.pimpl this = some v) :
    { n with signals := n.signals.set this object }.pimpl other =
      if other = this then object else n.pimpl other := by
  have inside : this < n.signals.length := by
    by_contra outside
    simp [pimpl, List.getElem?_eq_none (Nat.le_of_not_lt outside)] at there
  by_cases same : other = this
  · subst same
    simp [pimpl, List.getElem?_set_self inside]
  · simp [pimpl, same, List.getElem?_set_ne (Ne.symm same)]

theorem pimpl_append {this : SignalId} {signals : List (Option (Option ImplId))}
    {v : Option ImplId} :
    { n with signals := signals ++ [some v] }.pimpl this =
      if this = signals.length then some v else { n with signals }.pimpl this := by
  rcases Nat.lt_trichotomy this signals.length with before | same | behind
  · simp [pimpl, List.getElem?_append_left before, Nat.ne_of_lt before]
  · simp [pimpl, same]
  · have longer : (signals ++ [some v])[this]? = none := by
      apply List.getElem?_eq_none
      rw [List.length_append]
      exact behind
    simp [pimpl, longer, List.getElem?_eq_none (Nat.le_of_lt behind), Nat.ne_of_gt behind]

theorem constructSignal_pimpl {combiner : σ.Combiner}
    {defaultCompare groupCompare : σ.Group → σ.Group → Bool} {this : SignalId} :
    (n.constructSignal combiner defaultCompare groupCompare).pimpl this =
      if this = n.signals.length then some (some n.impls.length) else n.pimpl this := by
  let made : SignalNetwork σ := { n with
    impls := n.impls ++ [World.construct combiner defaultCompare groupCompare n.ownersSeen] }
  have now : { made with signals := n.signals ++ [some (some n.impls.length)] }.pimpl this =
      if this = n.signals.length then some (some n.impls.length)
      else { made with signals := n.signals }.pimpl this := pimpl_append
  exact now

theorem moveConstruct_acted {a : NetworkAction σ} {other : SignalId}
    (stepped : n.moveConstruct other = some n') : Acted n a n' := by
  obtain ⟨taken, there, rfl⟩ := Option.map_eq_some_iff.mp stepped
  have now : ∀ this, { n with
      signals := n.signals.set other (some none) ++ [some taken] }.pimpl this =
        if this = n.signals.length then some taken
        else if this = other then some none else n.pimpl this := by
    intro this
    rw [pimpl_append, List.length_set, pimpl_set there]
  have inside : n.pimpl n.signals.length = none := by simp [pimpl]
  apply Acted.objects
  · intro this x points
    rw [now] at points
    grind
  · intro unshared this that x points points'
    rw [now] at points points'
    have alone := unshared
    grind [Unshared]

theorem moveAssign_acted {a : NetworkAction σ} {this rhs : SignalId}
    (stepped : n.moveAssign this rhs = some n') : Acted n a n' := by
  unfold moveAssign at stepped
  split at stepped
  · rename_i own taken there source
    split at stepped
    · cases stepped
      exact .nothing
    · rename_i differ
      cases stepped
      have middle : { n with signals := n.signals.set this (some taken) }.pimpl rhs =
          some taken := by
        rw [pimpl_set there, if_neg (Ne.symm differ)]
        exact source
      have now : ∀ that, { n with
          signals := (n.signals.set this (some taken)).set rhs (some none) }.pimpl that =
            if that = rhs then some none else if that = this then some taken
            else n.pimpl that := by
        intro that
        exact (pimpl_set middle).trans (by rw [pimpl_set there])
      apply Acted.objects
      · intro that x points
        rw [now] at points
        grind
      · intro unshared first second x points points'
        rw [now] at points points'
        grind [Unshared]
  · cases stepped

theorem swap_acted {a : NetworkAction σ} {this other : SignalId}
    (stepped : n.swap this other = some n') : Acted n a n' := by
  unfold swap at stepped
  split at stepped
  · rename_i own taken there source
    cases stepped
    have middle : ∃ v, { n with signals := n.signals.set this (some taken) }.pimpl other =
        some v := by
      rw [pimpl_set there]
      split
      · exact ⟨taken, rfl⟩
      · exact ⟨taken, source⟩
    obtain ⟨v, middle⟩ := middle
    have now : ∀ that, { n with
        signals := (n.signals.set this (some taken)).set other (some own) }.pimpl that =
          if that = other then some own else if that = this then some taken
          else n.pimpl that := by
      intro that
      exact (pimpl_set middle).trans (by rw [pimpl_set there])
    apply Acted.objects
    · intro that x points
      rw [now] at points
      grind
    · intro unshared first second x points points'
      rw [now] at points points'
      grind [Unshared]
  · cases stepped

theorem destroySignal_acted {a : NetworkAction σ} {this : SignalId}
    (stepped : n.destroySignal this = some n') : Acted n a n' := by
  obtain ⟨own, there, rfl⟩ := Option.map_eq_some_iff.mp stepped
  apply Acted.objects
  · intro that x points
    rw [pimpl_set there] at points
    grind
  · intro unshared first second x points points'
    rw [pimpl_set there] at points points'
    grind [Unshared]

theorem stepImpl_some {a : Action σ} (stepped : n.stepImpl x a = some n') :
    ∃ w w', n.impls[x]? = some w ∧ w.step a = some w' ∧
      n' = { n with
        impls := n.impls.set x w'
        calls := n.calls.map (Option.map (arrives x w w')) ++ callsFrom x w a w' } := by
  unfold stepImpl at stepped
  split at stepped
  · cases stepped
  · rename_i w found
    obtain ⟨w', taken, rfl⟩ := Option.map_eq_some_iff.mp stepped
    exact ⟨w, w', found, taken, rfl⟩

theorem call_acted {this : SignalId} {a : Action σ} (stepped : n.call this a = some n') :
    Acted n (.call this a) n' := by
  unfold SignalNetwork.call at stepped
  split at stepped
  · rename_i allowed
    split at stepped
    · cases stepped
    · rename_i null
      cases uses : a.testsPimpl with
      | true =>
          simp only [uses, if_true, Option.some.injEq] at stepped
          subst stepped
          exact .nothing
      | false =>
          simp only [uses, Bool.false_eq_true, if_false, Option.some.injEq] at stepped
          subst stepped
          exact .null this a null uses
    · rename_i x own
      obtain ⟨w, w', found, taken, rfl⟩ := stepImpl_some stepped
      exact .takes x a w w' (.call this x a own allowed.1 allowed.2) found taken
  · cases stepped

theorem proceed_acted {a : Action σ} (stepped : n.proceed x a = some n') :
    Acted n (.proceed x a) n' := by
  unfold proceed at stepped
  split at stepped
  · cases stepped
  · rename_i allowed
    simp only [not_or, Bool.not_eq_true] at allowed
    obtain ⟨w, w', found, taken, rfl⟩ := stepImpl_some stepped
    exact .takes x a w w' (.proceed x a allowed.1 allowed.2.1 allowed.2.2) found taken

theorem weakInvoke_acted {c : CallId} (stepped : n.weakInvoke c = some n') :
    Acted n (.weakInvoke c) n' := by
  unfold weakInvoke at stepped
  split at stepped
  · cases stepped
  · rename_i call found
    split at stepped
    · rename_i promoted
      obtain ⟨w, w', there, taken, rfl⟩ := stepImpl_some stepped
      have takes : n.Takes (.weakInvoke c) call.sharedPimpl .invoke :=
        .weakInvoke c call (Option.join_eq_some_iff.mp found) promoted
      have acted := Acted.takes call.sharedPimpl .invoke w w' takes there taken
      simpa only [callsBefore, found, setStage] using acted
    · cases stepped

theorem weakReturn_acted {c : CallId} (stepped : n.weakReturn c = some n') :
    Acted n (.weakReturn c) n' := by
  unfold weakReturn at stepped
  split at stepped
  · cases stepped
  · rename_i call found
    split at stepped
    · rename_i i stage
      split at stepped
      · rename_i done
        cases stepped
        cases there : n.impls[call.sharedPimpl]? with
        | none => simp [there] at done
        | some w =>
            have ended : w.phaseOf i = some .done := by simpa [there] using done
            exact .returns c call i w (Option.join_eq_some_iff.mp found) stage there ended
      · cases stepped
    · cases stepped

theorem act_acted {a : NetworkAction σ} (stepped : n.act a = some n') : Acted n a n' := by
  cases a with
  | constructSignal combiner defaultCompare groupCompare =>
      cases stepped
      exact .constructs combiner defaultCompare groupCompare
  | moveConstruct other => exact moveConstruct_acted stepped
  | moveAssign this rhs => exact moveAssign_acted stepped
  | swap this other => exact swap_acted stepped
  | destroySignal this => exact destroySignal_acted stepped
  | call this a => exact call_acted stepped
  | proceed x a => exact proceed_acted stepped
  | weakInvoke c => exact weakInvoke_acted stepped
  | weakReturn c => exact weakReturn_acted stepped
  | acquire o =>
      simp only [act, SignalNetwork.acquire] at stepped
      split at stepped
      · rename_i allowed
        cases stepped
        exact .acquires o allowed.1 allowed.2
      · cases stepped
  | drop o =>
      simp only [act, SignalNetwork.drop] at stepped
      split at stepped
      · rename_i positive
        cases stepped
        exact .drops o positive
      · cases stepped

theorem step_acted {a : NetworkAction σ} (stepped : n.step a = some n') :
    n.nullPimpl = false ∧ ∃ acted, Acted n a acted ∧ n' = acted.collect := by
  unfold SignalNetwork.step at stepped
  split at stepped
  · cases stepped
  · rename_i sound
    obtain ⟨acted, taken, rfl⟩ := Option.map_eq_some_iff.mp stepped
    exact ⟨by simpa using sound, acted, act_acted taken, rfl⟩

/-! ### References and losses -/

theorem arrives_sharedPimpl {w' : World σ} (call : WeakSignalCall) :
    (arrives x w w' call).sharedPimpl = call.sharedPimpl := by
  unfold arrives
  split <;> rfl

theorem arrives_caller {w' : World σ} (call : WeakSignalCall) :
    (arrives x w w' call).caller = call.caller := by
  unfold arrives
  split <;> rfl

theorem callsBefore_same {a : NetworkAction σ} {call : WeakSignalCall}
    (member : some call ∈ n.callsBefore a) :
    ∃ earlier, some earlier ∈ n.calls ∧ call.sharedPimpl = earlier.sharedPimpl ∧
      call.caller = earlier.caller := by
  cases a with
  | weakInvoke c =>
      simp only [callsBefore] at member
      split at member
      · exact ⟨call, member, rfl, rfl⟩
      · rename_i earlier found
        rcases List.mem_or_eq_of_mem_set member with old | same
        · exact ⟨call, old, rfl, rfl⟩
        · cases same
          exact ⟨earlier, List.mem_of_getElem? (Option.join_eq_some_iff.mp found), rfl, rfl⟩
  | _ => exact ⟨call, member, rfl, rfl⟩

/-- Where a call comes from: a slot that refers to another signal. -/
inductive CallOrigin (n : SignalNetwork σ) (call : WeakSignalCall) : Prop
  | earlier (first : WeakSignalCall) (member : some first ∈ n.calls)
      (target : call.sharedPimpl = first.sharedPimpl) (caller : call.caller = first.caller)
  | begun (i : InvocationId) (w w' : World σ) (found : n.impls[call.caller]? = some w)
      (stepped : w.step (.dereference i) = some w')
      (target : w.weakTarget i = some call.sharedPimpl) (running : w'.phaseOf i = some .running)

theorem Acted.callOrigin {a : NetworkAction σ} (acted : Acted n a n') {call : WeakSignalCall}
    (member : some call ∈ n'.calls) : CallOrigin n call := by
  have kept : ∀ {first : WeakSignalCall}, some first ∈ n.calls → CallOrigin n first :=
    fun before => .earlier _ before rfl rfl
  cases acted with
  | takes x b w w' taken found stepped =>
      rcases List.mem_append.mp member with old | new
      · obtain ⟨c, before, arrived⟩ := List.mem_map.mp old
        obtain ⟨middle, rfl, rfl⟩ := Option.map_eq_some_iff.mp arrived
        obtain ⟨first, there, target, caller⟩ := callsBefore_same before
        apply CallOrigin.earlier first there
        · rw [arrives_sharedPimpl, target]
        · rw [arrives_caller, caller]
      · cases b with
        | dereference i =>
            simp only [callsFrom] at new
            split at new
            · cases new
            · rename_i y target
              split at new
              · rename_i running
                cases List.mem_singleton.mp new
                exact .begun i w w' found stepped target running
              · cases new
        | _ => cases new
  | returns c ended i w found stage there done =>
      rcases List.mem_or_eq_of_mem_set member with old | impossible
      · exact kept old
      · cases impossible
  | _ => exact kept member

theorem pointed_iff : some (some x) ∈ n.signals ↔ ∃ this, n.pimpl this = some (some x) := by
  constructor
  · intro member
    obtain ⟨this, found⟩ := List.mem_iff_getElem?.mp member
    exact ⟨this, by simp [pimpl, found]⟩
  · rintro ⟨this, points⟩
    exact List.mem_of_getElem? (Option.join_eq_some_iff.mp points)

theorem Acted.length {a : NetworkAction σ} (acted : Acted n a n') :
    n.impls.length ≤ n'.impls.length := by
  cases acted with
  | constructs combiner defaultCompare groupCompare =>
      simp [SignalNetwork.constructSignal]
  | takes x b w w' taken found stepped => simp
  | _ => exact Nat.le_refl _

theorem Acted.points {a : NetworkAction σ} (acted : Acted n a n') {this : SignalId}
    (points : n'.pimpl this = some (some x)) :
    (∃ other, n.pimpl other = some (some x)) ∨
      x = n.impls.length ∧ n'.impls.length = n.impls.length + 1 := by
  cases acted with
  | constructs combiner defaultCompare groupCompare =>
      have now : (n.constructSignal combiner defaultCompare groupCompare).pimpl this =
          if this = n.signals.length then some (some n.impls.length) else n.pimpl this :=
        constructSignal_pimpl
      rw [now] at points
      split at points
      · cases points
        exact .inr ⟨rfl, List.length_append⟩
      · exact .inl ⟨this, points⟩
  | objects signals pointed single => exact .inl (pointed this x points)
  | _ => exact .inl ⟨this, points⟩

theorem Acted.call_referred {a : NetworkAction σ} (acted : Acted n a n') (linked : n.Linked)
    {call : WeakSignalCall} (member : some call ∈ n'.calls) :
    n.lost (pimplObject call.sharedPimpl) = false := by
  cases acted.callOrigin member with
  | earlier first before target caller =>
      rw [target]
      exact not_lost_of_referred (mem_referred.mpr (.inr (.inl ⟨first, before, rfl⟩)))
  | begun i w w' found stepped target running =>
      exact (linked.owned_at found).mp (World.weakTarget_owned stepped target running)

theorem Acted.held_referred {a : NetworkAction σ} (acted : Acted n a n') (linked : n.Linked)
    (member : w ∈ n'.impls) (held : o ∈ w.held) : n.lost o = false := by
  have referred : ∀ u ∈ n.impls, o ∈ u.held → n.lost o = false := fun u before held =>
    not_lost_of_referred (mem_referred.mpr (.inr (.inr ⟨u, before, held⟩)))
  cases acted with
  | constructs combiner defaultCompare groupCompare =>
      rcases List.mem_append.mp member with old | new
      · exact referred w old held
      · cases List.mem_singleton.mp new
        cases held
  | takes x b u u' taken found stepped =>
      rcases List.mem_or_eq_of_mem_set member with old | rfl
      · exact referred w old held
      · apply (linked.owned_at found).mp
        by_contra unowned
        have gone : u.owned o = false := by simpa using unowned
        have stays := (World.step_effect stepped).2.stays gone
        rw [World.owned_iff_held.mpr (.inr held)] at stays
        cases stays
  | _ => exact referred w member held

theorem Acted.born {a : NetworkAction σ} (acted : Acted n a n') (born : n.born o = true) :
    n'.born o = true := by
  simp only [SignalNetwork.born] at born ⊢
  split
  · rfl
  · rename_i x known
    simp only [known, decide_eq_true_eq] at born ⊢
    exact Nat.lt_of_lt_of_le born acted.length

/-- What has been lost stays lost. -/
theorem Acted.lost {a : NetworkAction σ} (acted : Acted n a n') (linked : n.Linked)
    (gone : n.lost o = true) : n'.lost o = true := by
  have kept : ∀ other, n.lost other = false → other ≠ o := by
    rintro other kept rfl
    rw [gone] at kept
    cases kept
  obtain ⟨born, owners, _⟩ := lost_iff.mp gone
  apply lost_iff.mpr
  constructor
  · exact acted.born born
  · constructor
    · cases acted with
      | acquires other free owned =>
          have differ : o ≠ other := by
            rintro rfl
            rw [SignalNetwork.lost, owned, Bool.not_true, Bool.and_false] at gone
            cases gone
          simpa [Function.update_of_ne differ] using owners
      | drops other positive =>
          by_cases same : o = other
          · subst same
            simp [owners]
          · simpa [Function.update_of_ne same] using owners
      | _ => exact owners
    · intro referred
      rcases mem_referred.mp referred with ⟨x, pointed, same⟩ | ⟨call, member, same⟩ |
        ⟨w, member, held⟩
      · obtain ⟨this, points⟩ := pointed_iff.mp pointed
        rcases acted.points points with earlier | ⟨rfl, _⟩
        · exact kept _ (not_lost_of_referred
            (mem_referred.mpr (.inl ⟨x, pointed_iff.mpr earlier, rfl⟩))) same
        · subst same
          exact Nat.lt_irrefl _ (born_pimplObject.mp born)
      · exact kept _ (acted.call_referred linked member) same
      · exact kept o (acted.held_referred linked member held) rfl

end SignalNetwork

end Signals2
