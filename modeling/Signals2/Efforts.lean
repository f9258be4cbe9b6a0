/-
How much a signal still has to do: a number that every step which carries on with
what has been begun makes smaller, whoever takes it.  Only a slot that throws adds
to it, since its combiner may call the slot once more.
-/

import Signals2.Library.ListWalks
import Signals2.Library.Rankings
import Signals2.SteadyRuns

namespace Signals2

open LinkedLists IndexedLists

variable {σ : SignalTemplate}

/-! ### Slots that are still held -/

namespace BodyStore

variable {store : BodyStore σ} {b : BodyId}

/-- The slots that are still there, and those that the lock has collected. -/
def slotsHeld (store : BodyStore σ) : Nat :=
  (List.range store.nextBody).countP (fun b => (store.bodies b).slot.isSome) +
    store.garbage.length

/-- A body whose slot is in use has a slot, and has been made. -/
def SlotsBacked (store : BodyStore σ) : Prop :=
  ∀ b, 0 < (store.bodies b).slotRefcount →
    (store.bodies b).slot.isSome = true ∧ b < store.nextBody

theorem Counted.slotsBacked {active : List (Option BodyId)} (counted : store.Counted active) :
    store.SlotsBacked :=
  fun b used => ⟨(counted.balanced b).slot.mpr used, counted.allocated used⟩

theorem setBody_slotsHeld {body : ConnectionBody σ}
    (kept : body.slot.isSome = true → (store.bodies b).slot.isSome = true) :
    (store.setBody b body).slotsHeld ≤ store.slotsHeld := by
  unfold slotsHeld
  apply Nat.add_le_add_right
  apply List.countP_mono_left
  intro other _ there
  by_cases same : other = b
  · subst same
    rw [setBody_self] at there
    exact kept there
  · rwa [setBody_other body same] at there

/-- A slot that is released is collected. -/
theorem releaseSlot_slotsHeld (held : (store.bodies b).slot.isSome = true)
    (made : b < store.nextBody) : (store.releaseSlot b).slotsHeld ≤ store.slotsHeld := by
  obtain ⟨before, after, split⟩ := List.append_of_mem (List.mem_range.mpr made)
  have apart : ∀ other ∈ before ++ after, other ≠ b := by
    intro other member same
    subst same
    have distinct := List.nodup_range (n := store.nextBody)
    rw [split] at distinct
    exact (List.nodup_cons.mp (List.nodup_middle.mp distinct)).1 member
  have counted : ∀ others : List BodyId, (∀ other ∈ others, other ≠ b) →
      others.countP (fun other => ((store.releaseSlot b).bodies other).slot.isSome) =
        others.countP (fun other => (store.bodies other).slot.isSome) := by
    intro others different
    refine List.countP_congr fun other member => ?_
    rw [releaseSlot, setBody_other _ (different other member)]
  have gone : ((store.releaseSlot b).bodies b).slot.isSome = false := by
    simp [releaseSlot, setBody]
  have garbage : (store.releaseSlot b).garbage.length = store.garbage.length + 1 := by
    simp [releaseSlot]
  unfold slotsHeld
  change (List.range store.nextBody).countP _ + _ ≤ _
  rw [split, List.countP_append, List.countP_append, List.countP_cons, List.countP_cons, held, gone,
    counted before fun other member => apart other (List.mem_append_left _ member),
    counted after fun other member => apart other (List.mem_append_right _ member), garbage]
  simp only [Bool.false_eq_true, if_false, if_true]
  omega

theorem decSlotRefcount_slotsHeld (kept : store.SlotsBacked) (b : BodyId) :
    (store.decSlotRefcount b).slotsHeld ≤ store.slotsHeld := by
  unfold decSlotRefcount
  split
  · exact Nat.le_refl _
  · rename_i used
    obtain ⟨held, made⟩ := kept b (Nat.pos_of_ne_zero used)
    have stored : ∀ body : ConnectionBody σ, body.slot = (store.bodies b).slot →
        (store.setBody b body).slotsHeld ≤ store.slotsHeld := by
      intro body same
      apply setBody_slotsHeld
      rw [same]
      exact id
    dsimp only
    split
    · refine Nat.le_trans (releaseSlot_slotsHeld ?_ made) (stored _ rfl)
      rw [setBody_self]
      exact held
    · exact stored _ rfl

theorem nolockDisconnect_slotsHeld (kept : store.SlotsBacked) (b : BodyId) :
    (store.nolockDisconnect b).slotsHeld ≤ store.slotsHeld := by
  unfold nolockDisconnect
  split
  · refine Nat.le_trans (decSlotRefcount_slotsHeld ?_ b) (setBody_slotsHeld id)
    intro other used
    by_cases same : other = b
    · subst same
      rw [setBody_self] at used ⊢
      exact kept other used
    · rw [setBody_other _ same] at used ⊢
      exact kept other used
  · exact Nat.le_refl _

theorem setActiveSlot_slotsHeld (kept : store.SlotsBacked) (old new : Option BodyId) :
    (store.setActiveSlot old new).slotsHeld ≤ store.slotsHeld := by
  have taken : ∀ (store : BodyStore σ) (b : BodyId),
      (store.incSlotRefcount b).slotsHeld ≤ store.slotsHeld := by
    intro store b
    unfold incSlotRefcount
    split
    · exact Nat.le_refl _
    · exact setBody_slotsHeld id
  unfold setActiveSlot
  cases old with
  | none =>
      cases new with
      | none => exact Nat.le_refl _
      | some added => exact taken store added
  | some left =>
      have released := decSlotRefcount_slotsHeld kept left
      cases new with
      | none => exact released
      | some added => exact Nat.le_trans (taken _ added) released

theorem newConnectionBody_slotsHeld (slot : Slot σ) (groupKey : GroupKey σ.Group) :
    (store.newConnectionBody slot groupKey).slotsHeld ≤ store.slotsHeld + 1 := by
  have old : (List.range store.nextBody).countP
      (fun b => ((store.newConnectionBody slot groupKey).bodies b).slot.isSome) =
        (List.range store.nextBody).countP (fun b => (store.bodies b).slot.isSome) := by
    refine List.countP_congr fun b member => ?_
    rw [newConnectionBody_old _ _ (Nat.ne_of_lt (List.mem_range.mp member))]
  have last : [store.nextBody].countP
      (fun b => ((store.newConnectionBody slot groupKey).bodies b).slot.isSome) ≤ 1 :=
    List.countP_le_length
  unfold slotsHeld
  change (List.range (store.nextBody + 1)).countP _ + store.garbage.length ≤ _
  rw [List.range_succ, List.countP_append, old]
  omega

end BodyStore

namespace World

variable {w w' u : World σ} {a : Action σ} {compare : σ.Group → σ.Group → Bool}

theorem Counted.slotsBacked (counted : w.Counted) : w.toBodyStore.SlotsBacked :=
  BodyStore.Counted.slotsBacked counted

/-! ### What is left to do -/

section

variable (w : World σ)

/-- The bodies from a position on, in the list of a local copy of the shared state. -/
def bodiesAhead (localState : Option StateId) (it : Iterator) : List BodyId :=
  match localState with
  | none => []
  | some s => ((w.listOf s).list.ahead it).map Prod.snd

def listSize (localState : Option StateId) : Nat :=
  match localState with
  | none => 0
  | some s => (w.listOf s).list.nodes.length

/-- What one connection can cost a walk along the list: three steps for each object that
its slot tracks, and a few more. -/
def weight (b : BodyId) : Nat := 3 * (w.bodies b).trackedObjects.length + 8

def weights (bodies : List BodyId) : Nat := total (fun _ => w.weight) bodies

/-- The critical section is one of the invocation. -/
def engages (i : InvocationId) : Bool :=
  match w.critical with
  | some (.grabTrackedObjects (.iterator j) _ _ _) => j == i
  | some (.cleanupConnections _ _ _ _ (.forceCleanup j)) => j == i
  | _ => false

/-- The critical section is one of the traversal. -/
def engagesTraversal (t : TraversalId) : Bool :=
  match w.critical with
  | some (.grabTrackedObjects (.traversal u) _ _ _) => u == t
  | some (.contains u _ _ _ _) => u == t
  | _ => false

/-- An invocation pays for the connections that it may still look at, for the pointers that
it holds and for a cleanup at its end. -/
def invocationEffort (inv : Invocation σ) (engaged : Bool) : Nat :=
  let ahead := w.bodiesAhead inv.localState inv.iter
  let size := w.listSize inv.localState
  inv.trackedPtrs.length +
    match inv.phase with
    | .searching =>
        if engaged then w.weights ahead.tail + size + 12 else w.weights ahead + size + 7
    | .ready =>
        w.weights ahead.tail + size +
          if inv.iter.node = none then 6 else if inv.result.isNone then 11 else 9
    | .running => w.weights ahead.tail + size + 10
    | .janitor => if engaged then 3 else size + 5
    | .destructing => 2
    | .releasing => 1
    | .done => 0

def traversalEffort (tr : Traversal σ) (engaged : Bool) : Nat :=
  let ahead := w.bodiesAhead tr.localState tr.it
  if tr.localState = none then 0
  else if engaged then w.weights ahead.tail + 1
  else w.weights ahead + 1

/-- What follows a cleanup. -/
def afterEffort (impl : SignalImpl) : AfterCleanup σ → Nat
  | .connect _ => 1
  | .invoke =>
      let list := (w.heap.connectionBodies impl).list
      w.weights list.values + list.nodes.length + 7
  | .forceCleanup _ => 0

/-- The steps of the client that holds the mutex. -/
def sectionEffort : Nat :=
  match w.critical with
  | none => 0
  | some (.grabTrackedObjects client _ todo locked) =>
      3 * todo.length + (if locked.isNone then 1 else 0) + (if client = .connected then 2 else 1)
  | some (.contains ..) => 1
  | some (.cleanupConnections it _ _ _ after) =>
      match w.heap.impl with
      | none => 0
      | some impl =>
          ((w.heap.connectionBodies impl).list.ahead it).length + w.afterEffort impl after + 1

def invocationsEffort : Nat :=
  total (fun i inv => w.invocationEffort inv (w.engages i)) w.invocations

def traversalsEffort : Nat :=
  total (fun t tr => w.traversalEffort tr (w.engagesTraversal t)) w.traversals

/-- The slots that are held or on their way out, and the references not yet released. -/
def load : Nat := w.toBodyStore.slotsHeld + w.trash.length

def effort : Nat := w.sectionEffort + w.invocationsEffort + w.traversalsEffort + w.load

end

/-! ### Bodies get no heavier -/

theorem weight_le {b : BodyId} (ages : (w.bodies b).Ages (w'.bodies b)) :
    w'.weight b ≤ w.weight b := by
  unfold weight ConnectionBody.trackedObjects
  cases held : (w'.bodies b).slot with
  | none =>
      dsimp only [List.length_nil]
      omega
  | some slot =>
      rw [ages.slot slot held]

theorem Effect.weight_le (effect : Effect w a w') {b : BodyId} (below : b < w.nextBody) :
    w'.weight b ≤ w.weight b := by
  unfold weight ConnectionBody.trackedObjects
  cases held : (w'.bodies b).slot with
  | none =>
      dsimp only [List.length_nil]
      omega
  | some slot => rw [effect.slot_kept below held]

theorem weights_le {bodies : List BodyId} (lighter : ∀ b ∈ bodies, w'.weight b ≤ w.weight b) :
    w'.weights bodies ≤ w.weights bodies :=
  total_le _ _ fun _ b found => lighter b (List.mem_of_getElem? found)

theorem weights_cons (b : BodyId) (rest : List BodyId) :
    w.weights (b :: rest) = w.weight b + w.weights rest := rfl

theorem weights_tail (bodies : List BodyId) : w.weights bodies.tail ≤ w.weights bodies := by
  cases bodies with
  | nil => exact Nat.le_refl _
  | cons b rest =>
      rw [weights_cons]
      exact Nat.le_add_left _ _

/-- A walk has the body that it stands on ahead of it, and then what is ahead of the
next position. -/
theorem bodiesAhead_here {localState : Option StateId} {it : Iterator} {b : BodyId}
    (here : w.bodyAt localState it = some b) :
    w.bodiesAhead localState it =
      b :: w.bodiesAhead localState (w.iteratorAfter localState it) := by
  cases localState with
  | none => cases here
  | some s =>
      have found : (w.listOf s).list.value? it = some b := here
      obtain ⟨node, later, ahead, next⟩ := ahead_here found
      simp only [bodiesAhead, iteratorAfter, ahead, next, List.map_cons]

theorem bodiesAhead_past {localState : Option StateId} {it : Iterator} (atEnd : it.node = none) :
    w.bodiesAhead localState it = [] := by
  cases localState with
  | none => rfl
  | some s => simp [bodiesAhead, ahead_past atEnd]

theorem bodiesAhead_congr {localState : Option StateId}
    (kept : ∀ s, localState = some s → w'.listOf s = w.listOf s) (it : Iterator) :
    w'.bodiesAhead localState it = w.bodiesAhead localState it := by
  cases localState with
  | none => rfl
  | some s => simp only [bodiesAhead, kept s rfl]

theorem listSize_congr {localState : Option StateId}
    (kept : ∀ s, localState = some s → w'.listOf s = w.listOf s) :
    w'.listSize localState = w.listSize localState := by
  cases localState with
  | none => rfl
  | some s => simp only [listSize, kept s rfl]

theorem bodiesAhead_listed {localState : Option StateId} {it : Iterator} {b : BodyId}
    (member : b ∈ w.bodiesAhead localState it) : Listed w.heap b := by
  cases localState with
  | none => cases member
  | some s =>
      obtain ⟨node, inside, rfl⟩ := List.mem_map.mp member
      exact ⟨_, List.mem_map_of_mem ((List.dropWhile_sublist _).subset inside)⟩

/-- The lists that walks use stay as they are, and the bodies in them get no heavier. -/
structure Eased (w w' : World σ) : Prop where
  lists : ∀ kind s, some s ∈ w.readers kind → w'.listOf s = w.listOf s
  lighter : ∀ b, Listed w.heap b → w'.weight b ≤ w.weight b

theorem Steady.eased (steady : w.Steady compare) (effect : Effect w a w') : Eased w w' where
  lists kind s member := by
    have isolated := steady.guarding.isolated
    cases kind with
    | invocation => exact (isolated.apart.kept isolated.sharing effect.change member).2
    | traversal => exact (steady.apart.kept isolated.sharing effect.change member).2
  lighter b listed := effect.weight_le (steady.guarding.isolated.listed b listed)

section

variable {inv : Invocation σ} {tr : Traversal σ}

theorem Eased.weights_le (eased : Eased w w') {localState : Option StateId} {it : Iterator}
    (bodies : List BodyId) (part : ∀ b ∈ bodies, b ∈ w.bodiesAhead localState it) :
    w'.weights bodies ≤ w.weights bodies :=
  World.weights_le fun b member => eased.lighter b (bodiesAhead_listed (part b member))

theorem Eased.invocation_of (eased : Eased w w') (inv : Invocation σ)
    (kept : ∀ s, inv.localState = some s → w'.listOf s = w.listOf s) (engaged : Bool) :
    w'.invocationEffort inv engaged ≤ w.invocationEffort inv engaged := by
  have all := eased.weights_le (w.bodiesAhead inv.localState inv.iter) fun _ => id
  have tail := eased.weights_le (w.bodiesAhead inv.localState inv.iter).tail
    fun _ => List.mem_of_mem_tail
  simp only [invocationEffort, bodiesAhead_congr kept, listSize_congr kept]
  apply Nat.add_le_add_left
  cases inv.phase with
  | searching =>
      dsimp only
      split <;> omega
  | ready =>
      dsimp only
      omega
  | running =>
      dsimp only
      omega
  | _ => exact Nat.le_refl _

theorem Eased.invocation (eased : Eased w w') (member : inv ∈ w.invocations) (engaged : Bool) :
    w'.invocationEffort inv engaged ≤ w.invocationEffort inv engaged :=
  eased.invocation_of inv (fun s state =>
    eased.lists .invocation s (List.mem_map.mpr ⟨inv, member, state⟩)) engaged

theorem Eased.traversal_of (eased : Eased w w') (tr : Traversal σ)
    (kept : ∀ s, tr.localState = some s → w'.listOf s = w.listOf s) (engaged : Bool) :
    w'.traversalEffort tr engaged ≤ w.traversalEffort tr engaged := by
  have all := eased.weights_le (w.bodiesAhead tr.localState tr.it) fun _ => id
  have tail := eased.weights_le (w.bodiesAhead tr.localState tr.it).tail
    fun _ => List.mem_of_mem_tail
  simp only [traversalEffort, bodiesAhead_congr kept]
  split
  · exact Nat.le_refl _
  · split <;> omega

theorem Eased.traversal (eased : Eased w w') (member : tr ∈ w.traversals) (engaged : Bool) :
    w'.traversalEffort tr engaged ≤ w.traversalEffort tr engaged :=
  eased.traversal_of tr (fun s state =>
    eased.lists .traversal s (List.mem_map.mpr ⟨tr, member, state⟩)) engaged

end

/-! ### Sums -/

theorem Eased.invocations_same (eased : Eased w w') (same : w'.invocations = w.invocations)
    (engages : ∀ i inv, w.invocations[i]? = some inv → w'.engages i = w.engages i) :
    w'.invocationsEffort ≤ w.invocationsEffort := by
  unfold invocationsEffort
  rw [same]
  refine total_le _ _ fun i inv found => ?_
  rw [engages i inv found]
  exact eased.invocation (List.mem_of_getElem? found) _

theorem Eased.traversals_same (eased : Eased w w') (same : w'.traversals = w.traversals)
    (engages : ∀ t tr, w.traversals[t]? = some tr →
      w'.engagesTraversal t = w.engagesTraversal t) :
    w'.traversalsEffort ≤ w.traversalsEffort := by
  unfold traversalsEffort
  rw [same]
  refine total_le _ _ fun t tr found => ?_
  rw [engages t tr found]
  exact eased.traversal (List.mem_of_getElem? found) _

/-- One invocation goes on. -/
theorem Eased.invocations_set (eased : Eased w w') {i : InvocationId} {inv inv' : Invocation σ}
    (found : w.invocations[i]? = some inv) (changed : w'.invocations = w.invocations.set i inv')
    (engages : ∀ j, j ≠ i → w'.engages j = w.engages j) :
    w'.invocationsEffort + w.invocationEffort inv (w.engages i) ≤
      w.invocationsEffort + w'.invocationEffort inv' (w'.engages i) := by
  unfold invocationsEffort
  rw [changed]
  refine total_set (fun j other => w.invocationEffort other (w.engages j))
    (fun j other => w'.invocationEffort other (w'.engages j)) found inv' fun j other apart there => ?_
  rw [engages j apart]
  exact eased.invocation (List.mem_of_getElem? there) _

/-- One traversal goes on. -/
theorem Eased.traversals_set (eased : Eased w w') {t : TraversalId} {tr tr' : Traversal σ}
    (found : w.traversals[t]? = some tr) (changed : w'.traversals = w.traversals.set t tr')
    (engages : ∀ u, u ≠ t → w'.engagesTraversal u = w.engagesTraversal u) :
    w'.traversalsEffort + w.traversalEffort tr (w.engagesTraversal t) ≤
      w.traversalsEffort + w'.traversalEffort tr' (w'.engagesTraversal t) := by
  unfold traversalsEffort
  rw [changed]
  refine total_set (fun u other => w.traversalEffort other (w.engagesTraversal u))
    (fun u other => w'.traversalEffort other (w'.engagesTraversal u)) found tr' fun u other apart there => ?_
  rw [engages u apart]
  exact eased.traversal (List.mem_of_getElem? there) _

/-! ### Load -/

theorem unlock_load (u : World σ) : u.unlock.load = u.load := by
  simp only [load, unlock, BodyStore.slotsHeld, List.length_append, List.length_map,
    List.length_nil]
  omega

theorem load_of_store {store : BodyStore σ} (lighter : store.slotsHeld ≤ w.toBodyStore.slotsHeld) :
    ({ w with toBodyStore := store } : World σ).load ≤ w.load :=
  Nat.add_le_add_right lighter _

theorem Counted.disconnect_load (counted : w.Counted) (b : BodyId) :
    (w.nolockDisconnect b).load ≤ w.load :=
  load_of_store (BodyStore.nolockDisconnect_slotsHeld counted.slotsBacked b)

theorem Counted.activate_load (counted : w.Counted) (old new : Option BodyId) :
    (w.setActiveSlot old new).load ≤ w.load :=
  load_of_store (BodyStore.setActiveSlot_slotsHeld counted.slotsBacked old new)

theorem Counted.ended_load (counted : w.Counted) {b : BodyId} {todo : List VoidWeakPtr}
    {locked : Option (Option ObjectId)} (ended : Ended w b todo locked u) : u.load ≤ w.load := by
  cases ended with
  | grabbed locked => exact Nat.le_refl _
  | expired p rest expired => exact counted.disconnect_load b

theorem Counted.checkExpired_load (counted : w.Counted) (grabTracked : Bool) (b : BodyId) :
    (w.checkExpired grabTracked b).load ≤ w.load := by
  unfold World.checkExpired disconnectExpiredSlot
  split
  · split
    · exact Nat.le_refl _
    · split
      · exact counted.disconnect_load b
      · exact Nat.le_refl _
  · exact Nat.le_refl _

theorem Counted.tested_load (counted : w.Counted) {b : BodyId} {condition : Prop}
    [Decidable condition] (tested : u = if condition then w.nolockDisconnect b else w) :
    u.load ≤ w.load := by
  subst tested
  split
  · exact counted.disconnect_load b
  · exact Nat.le_refl _

/-! ### Steps that carry on -/

/-- The action begins no operation, and does not ask again for a result that is there. -/
def carriesOn (w : World σ) : Action σ → Bool
  | .section => true
  | .clearTracked _ => true
  | .lockNext _ => true
  | .reachEnd _ => true
  | .dereference i => w.invocations[i]?.all fun inv => inv.result.isNone
  | .slotReturns _ _ => true
  | .slotThrows _ _ => true
  | .increment _ => true
  | .finish _ => true
  | .janitor _ => true
  | .destroyCache _ => true
  | .releaseState _ => true
  | .advance _ => true
  | .release _ => true
  | _ => false

/-- A step of an invocation on its own, outside of every critical section. -/
structure OwnStep (w : World σ) (i : InvocationId) (inv : Invocation σ) (a : Action σ)
    (inv' : Invocation σ) (w' : World σ) : Prop where
  found : w.invocations[i]? = some inv
  how : Progress w i inv a inv'
  invocations : w'.invocations = w.invocations.set i inv'
  traversals : w'.traversals = w.traversals
  critical : w'.critical = w.critical
  heap : w'.heap = w.heap
  load : w'.load ≤ w.load

theorem ownStep_of_move {i : InvocationId} {inv inv' : Invocation σ}
    (found : w.invocations[i]? = some inv) (move : Move w i inv a inv') :
    OwnStep w i inv a inv' (w.setInvocation i inv') :=
  ⟨found, .move move, rfl, rfl, rfl, rfl, Nat.le_refl _⟩

theorem clearTracked_own {i : InvocationId} (stepped : w.clearTracked i = some w') :
    ∃ inv inv', OwnStep w i inv (.clearTracked i) inv' w' := by
  unfold clearTracked at stepped
  split at stepped
  · cases stepped
  · rename_i inv found
    split at stepped
    · cases stepped
    · rename_i blocked
      obtain ⟨some, outside⟩ := not_or.mp blocked
      split at stepped
      · rename_i phase
        cases stepped
        exact ⟨inv, _, ownStep_of_move found (.clear some (by simpa using outside) phase)⟩
      · cases stepped

theorem reachEnd_own (counted : w.Counted) (sound : w'.fault = none) {i : InvocationId}
    (stepped : w.reachEnd i = some w') : ∃ inv inv', OwnStep w i inv (.reachEnd i) inv' w' := by
  unfold reachEnd at stepped
  split at stepped
  · cases stepped
  · rename_i inv found
    split at stepped
    · rename_i ready
      split at stepped
      · rename_i idle
        cases stepped
        exact ⟨inv, _, ownStep_of_move found (.reachEnd ready.1 ready.2 idle)⟩
      · rename_i callable
        split at stepped
        · cases stepped
        · rename_i taken
          have free : w.critical = none := by simpa using taken
          split at stepped
          · cases stepped
            cases sound
          · cases stepped
            refine ⟨inv, _, found, .reachEnd free ready.1 ready.2 callable, rfl, rfl, free.symm, rfl,
              ?_⟩
            rw [unlock_load]
            exact counted.activate_load _ _
    · cases stepped

theorem dereference_own (sound : w'.fault = none) {i : InvocationId}
    (first : w.carriesOn (.dereference i) = true) (stepped : w.dereference i = some w') :
    ∃ inv inv', OwnStep w i inv (.dereference i) inv' w' := by
  unfold dereference at stepped
  split at stepped
  · cases stepped
  · rename_i inv found
    have unread : inv.result.isNone = true := by
      rw [carriesOn, found] at first
      exact first
    split at stepped
    · rename_i ready
      split at stepped
      · rename_i read
        rw [← Option.not_isSome] at unread
        simp [read] at unread
      · have none : inv.result = none := Option.isNone_iff_eq_none.mp unread
        split at stepped
        · cases stepped
          cases sound
        · rename_i b here
          split at stepped
          · cases stepped
            cases sound
          · rename_i slot held
            dsimp only at stepped
            split at stepped
            · rename_i function target
              cases stepped
              refine ⟨inv, _, ownStep_of_move found (.call b slot ready.1 ready.2 none here held ?_)⟩
              intro weakPimpl same
              rw [target] at same
              cases same
            · rename_i weakPimpl target
              split at stepped
              · rename_i owned
                cases stepped
                refine ⟨inv, _, ownStep_of_move found
                  (.call b slot ready.1 ready.2 none here held ?_)⟩
                intro other same
                rw [target] at same
                cases same
                exact owned
              · cases stepped
                cases sound
    · cases stepped

theorem slotReturns_own {i : InvocationId} {result : σ.Result}
    (stepped : w.slotReturns i result = some w') :
    ∃ inv inv', OwnStep w i inv (.slotReturns i result) inv' w' := by
  unfold slotReturns at stepped
  split at stepped
  · cases stepped
  · rename_i inv found
    split at stepped
    · rename_i phase
      cases stepped
      exact ⟨inv, _, ownStep_of_move found (.returns result phase)⟩
    · cases stepped

theorem slotThrows_own (counted : w.Counted) (sound : w'.fault = none) {i : InvocationId}
    {expiredSlot : Bool} (stepped : w.slotThrows i expiredSlot = some w') :
    ∃ inv inv', OwnStep w i inv (.slotThrows i expiredSlot) inv' w' := by
  unfold slotThrows at stepped
  split at stepped
  · cases stepped
  · rename_i inv found
    split at stepped
    · rename_i phase
      dsimp only at stepped
      split at stepped
      · rename_i expired
        subst expired
        split at stepped
        · cases stepped
        · rename_i taken
          have free : w.critical = none := by simpa using taken
          split at stepped
          · cases stepped
            cases sound
          · rename_i b here
            cases stepped
            refine ⟨inv, _, found, .throwExpired phase, rfl, rfl, free.symm, rfl, ?_⟩
            rw [unlock_load]
            exact counted.disconnect_load b
      · rename_i plain
        have other : expiredSlot = false := by simpa using plain
        subst other
        cases stepped
        exact ⟨inv, _, ownStep_of_move found (.throws phase)⟩
    · cases stepped

theorem increment_own (sound : w'.fault = none) {i : InvocationId}
    (stepped : w.increment i = some w') : ∃ inv inv', OwnStep w i inv (.increment i) inv' w' := by
  unfold increment at stepped
  split at stepped
  · cases stepped
  · rename_i inv found
    split at stepped
    · rename_i ready
      split at stepped
      · cases stepped
        cases sound
      · rename_i here
        cases stepped
        exact ⟨inv, _, ownStep_of_move found (.increment ready.1 ready.2 here)⟩
    · cases stepped

theorem finish_own {i : InvocationId} (stepped : w.finish i = some w') :
    ∃ inv inv', OwnStep w i inv (.finish i) inv' w' := by
  unfold finish at stepped
  split at stepped
  · cases stepped
  · rename_i inv found
    split at stepped
    · rename_i phase
      cases stepped
      exact ⟨inv, _, ownStep_of_move found (.finish phase)⟩
    · cases stepped

theorem destroyCache_own (counted : w.Counted) {i : InvocationId}
    (stepped : w.destroyCache i = some w') :
    ∃ inv inv', OwnStep w i inv (.destroyCache i) inv' w' := by
  unfold destroyCache at stepped
  split at stepped
  · cases stepped
  · rename_i inv found
    split at stepped
    · rename_i phase
      split at stepped
      · rename_i idle
        cases stepped
        exact ⟨inv, _, ownStep_of_move found (.skipCache phase idle)⟩
      · rename_i b active
        split at stepped
        · cases stepped
        · rename_i taken
          have free : w.critical = none := by simpa using taken
          cases stepped
          refine ⟨inv, _, found, .destroyCache free phase (by simp [active]), rfl, rfl, free.symm,
            rfl, ?_⟩
          rw [unlock_load]
          exact counted.activate_load _ _
    · cases stepped

theorem releaseState_own {i : InvocationId} (stepped : w.releaseState i = some w') :
    ∃ inv inv', OwnStep w i inv (.releaseState i) inv' w' := by
  unfold releaseState at stepped
  split at stepped
  · cases stepped
  · rename_i inv found
    split at stepped
    · rename_i ready
      cases stepped
      exact ⟨inv, _, ownStep_of_move found (.releaseState ready.1 ready.2)⟩
    · cases stepped

/-- A slot that throws may be called once more. -/
def credit : Action σ → Nat
  | .slotThrows _ _ => 2
  | _ => 0

theorem engages_congr (critical : w'.critical = w.critical) (i : InvocationId) :
    w'.engages i = w.engages i := by
  simp only [engages, critical]

theorem engagesTraversal_congr (critical : w'.critical = w.critical) (t : TraversalId) :
    w'.engagesTraversal t = w.engagesTraversal t := by
  simp only [engagesTraversal, critical]

theorem not_engages {i : InvocationId} (apart : ¬ w.Engaged i) : w.engages i = false := by
  unfold engages
  unfold Engaged at apart
  split <;> simp_all

theorem not_engages_of_free (free : w.critical = none) (i : InvocationId) :
    w.engages i = false := by
  simp only [engages, free]

theorem Eased.section_same (eased : Eased w w') (critical : w'.critical = w.critical)
    (heap : w'.heap = w.heap) : w'.sectionEffort ≤ w.sectionEffort := by
  unfold sectionEffort
  rw [critical, heap]
  split
  · exact Nat.le_refl _
  · exact Nat.le_refl _
  · exact Nat.le_refl _
  · rename_i it i count grabTracked after taken
    cases present : w.heap.impl with
    | none => exact Nat.le_refl _
    | some impl =>
        dsimp only
        apply Nat.add_le_add_right
        apply Nat.add_le_add_left
        cases after with
        | connect arguments => exact Nat.le_refl _
        | forceCleanup j => exact Nat.le_refl _
        | invoke =>
            have lighter : w'.weights (w.heap.connectionBodies impl).list.values ≤
                w.weights (w.heap.connectionBodies impl).list.values :=
              World.weights_le fun b member => eased.lighter b ⟨_, member⟩
            simp only [afterEffort, heap]
            omega

/-- Every step of an invocation on its own makes its effort smaller. -/
theorem Progress.lowers {i : InvocationId} {inv inv' : Invocation σ}
    (how : Progress w i inv a inv') (criticalPlaced : w.SectionPlaced)
    (found : w.invocations[i]? = some inv) (outside : a ≠ .section) :
    w.invocationEffort inv' (w.engages i) + 1 ≤
      w.invocationEffort inv (w.engages i) + credit a := by
  cases how with
  | insert b p rest locked critical => exact absurd rfl outside
  | commit b locked critical connected unblocked => exact absurd rfl outside
  | skip b todo locked u critical ended blocked => exact absurd rfl outside
  | forced it k count grabTracked critical => exact absurd rfl outside
  | reachEnd free phase atEnd callable =>
      simp only [invocationEffort, phase, atEnd, not_engages_of_free free, bodiesAhead_past atEnd,
        List.tail_nil, if_true, Bool.false_eq_true, if_false]
      omega
  | destroyCache free phase active =>
      simp only [invocationEffort, phase]
      omega
  | throwExpired phase =>
      simp only [invocationEffort, phase, credit]
      split
      · omega
      · split <;> omega
  | move move =>
      have free := not_engages (move.disengaged criticalPlaced found)
      rw [free]
      cases move with
      | clear some outside phase =>
          have shorter : inv.trackedPtrs.dropLast.length + 1 = inv.trackedPtrs.length := by
            rw [List.length_dropLast]
            exact Nat.succ_pred_eq_of_pos (List.length_pos_of_ne_nil some)
          simp only [invocationEffort, credit]
          omega
      | reachEnd phase atEnd idle =>
          simp only [invocationEffort, phase, atEnd, bodiesAhead_past atEnd, List.tail_nil, if_true,
            Bool.false_eq_true, if_false, credit]
          omega
      | call b slot phase inside first here held promoted =>
          simp only [invocationEffort, phase, inside, first, if_false, Option.isNone_none, if_true,
            credit]
          omega
      | returns result phase =>
          simp only [invocationEffort, phase, credit, Option.isNone_some, Bool.false_eq_true,
            if_false]
          split <;> omega
      | throws phase =>
          simp only [invocationEffort, phase, credit]
          split
          · omega
          · split <;> omega
      | increment phase inside here =>
          obtain ⟨b, there⟩ := Option.ne_none_iff_exists'.mp here
          have ahead := bodiesAhead_here there
          have later : (w.iteratorAfter inv.localState inv.iter).node ≠ none →
              8 + w.weights (w.bodiesAhead inv.localState
                (w.iteratorAfter inv.localState inv.iter)).tail ≤
              w.weights (w.bodiesAhead inv.localState
                (w.iteratorAfter inv.localState inv.iter)) := by
            intro further
            obtain ⟨c, there'⟩ := iteratorAfter_placed there further
            rw [bodiesAhead_here there', weights_cons, List.tail_cons, weight]
            omega
          have tail := weights_tail (w := w) (w.bodiesAhead inv.localState
            (w.iteratorAfter inv.localState inv.iter))
          simp only [invocationEffort, phase, inside, ahead, List.tail_cons, if_false, credit]
          by_cases back : w.iteratorAfter inv.localState inv.iter = inv.callableIter
          · by_cases further : (w.iteratorAfter inv.localState inv.iter).node = none
            · simp only [if_pos back, further, if_true, Option.isNone_none]
              split <;> omega
            · have gain := later further
              simp only [if_pos back, further, if_false, Option.isNone_none, if_true]
              split <;> omega
          · simp only [if_neg back, Bool.false_eq_true, if_false]
            split <;> omega
      | finish phase =>
          simp only [invocationEffort, phase, credit, Bool.false_eq_true, if_false]
          split
          · omega
          · split <;> omega
      | leave phase few =>
          simp only [invocationEffort, phase, credit, Bool.false_eq_true, if_false]
          omega
      | skipCache phase idle =>
          simp only [invocationEffort, phase, credit]
          omega
      | releaseState phase cleared =>
          simp only [invocationEffort, phase, credit]
          omega

theorem OwnStep.pays {i : InvocationId} {inv inv' : Invocation σ}
    (own : OwnStep w i inv a inv' w') (steady : w.Steady compare) (effect : Effect w a w')
    (outside : a ≠ .section) : w'.effort + 1 ≤ w.effort + credit a := by
  have eased := steady.eased effect
  have lists : ∀ s, w'.listOf s = w.listOf s := fun s => by simp only [listOf, own.heap]
  have lower := own.how.lowers steady.guarding.isolated.positioned.criticalPlaced own.found outside
  have moved := eased.invocation_of inv' (fun s _ => lists s) (w.engages i)
  have invocations := eased.invocations_set own.found own.invocations
    fun j _ => engages_congr own.critical j
  have traversals := eased.traversals_same own.traversals
    fun t _ _ => engagesTraversal_congr own.critical t
  have running := eased.section_same own.critical own.heap
  have load := own.load
  rw [engages_congr own.critical i] at invocations
  unfold effort
  omega

/-! ### Steps that begin a critical section -/

theorem invocationEffort_engaged_le (inv : Invocation σ) (searching : inv.phase = .searching)
    {b : BodyId} (here : w.bodyAt inv.localState inv.iter = some b) :
    w.invocationEffort inv true + 3 * (w.bodies b).trackedObjects.length + 3 ≤
      w.invocationEffort inv false := by
  simp only [invocationEffort, searching, bodiesAhead_here here, List.tail_cons, weights_cons,
    weight, if_true, Bool.false_eq_true, if_false]
  omega

theorem traversalEffort_engaged_le (tr : Traversal σ) {b : BodyId}
    (here : w.bodyAt tr.localState tr.it = some b) :
    w.traversalEffort tr true + 3 * (w.bodies b).trackedObjects.length + 3 ≤
      w.traversalEffort tr false := by
  have progress : tr.localState ≠ none := by
    intro gone
    rw [gone] at here
    cases here
  simp only [traversalEffort, progress, bodiesAhead_here here, List.tail_cons, weights_cons,
    weight, if_true, Bool.false_eq_true, if_false]
  omega

/-- The mutex is taken, and nothing else changes but a copy that the signal makes. -/
structure Entered (w w' : World σ) : Prop where
  free : w.critical = none
  invocations : w'.invocations = w.invocations
  traversals : w'.traversals = w.traversals
  load : w'.load = w.load

theorem enter_entered (free : w.critical = none) (s : Section σ) : Entered w (w.enter s) :=
  ⟨free, rfl, rfl, rfl⟩

theorem Entered.section_free (entered : Entered w w') : w.sectionEffort = 0 := by
  simp only [sectionEffort, entered.free]

theorem not_engagesTraversal_of_free (free : w.critical = none) (t : TraversalId) :
    w.engagesTraversal t = false := by
  simp only [engagesTraversal, free]

/-- The section is one of an invocation, which pays for it. -/
theorem Entered.pays_invocation (entered : Entered w w') (eased : Eased w w') {i : InvocationId}
    {inv : Invocation σ} (found : w.invocations[i]? = some inv)
    (mine : ∀ j, w'.engages j = (i == j)) (others : ∀ t, w'.engagesTraversal t = false)
    (paid : w'.sectionEffort + w.invocationEffort inv true + 1 ≤ w.invocationEffort inv false) :
    w'.effort + 1 ≤ w.effort := by
  have changed : w'.invocations = w.invocations.set i inv := by
    rw [entered.invocations]
    exact (List.set_getElem_self (List.getElem?_eq_some_iff.mp found).1).symm.trans
      (by rw [(List.getElem?_eq_some_iff.mp found).2])
  have invocations := eased.invocations_set found changed fun j apart => by
    rw [mine j, not_engages_of_free entered.free]
    simpa using apart.symm
  have traversals := eased.traversals_same entered.traversals fun t _ _ =>
    (others t).trans (not_engagesTraversal_of_free entered.free t).symm
  have same := eased.invocation (List.mem_of_getElem? found) true
  rw [mine i, not_engages_of_free entered.free, beq_self_eq_true] at invocations
  have idle := entered.section_free
  have load := entered.load
  unfold effort
  omega

/-- The section is one of a traversal, which pays for it. -/
theorem Entered.pays_traversal (entered : Entered w w') (eased : Eased w w') {t : TraversalId}
    {tr : Traversal σ} (found : w.traversals[t]? = some tr)
    (mine : ∀ u, w'.engagesTraversal u = (t == u)) (others : ∀ i, w'.engages i = false)
    (paid : w'.sectionEffort + w.traversalEffort tr true + 1 ≤ w.traversalEffort tr false) :
    w'.effort + 1 ≤ w.effort := by
  have changed : w'.traversals = w.traversals.set t tr := by
    rw [entered.traversals]
    exact (List.set_getElem_self (List.getElem?_eq_some_iff.mp found).1).symm.trans
      (by rw [(List.getElem?_eq_some_iff.mp found).2])
  have traversals := eased.traversals_set found changed fun u apart => by
    rw [mine u, not_engagesTraversal_of_free entered.free]
    simpa using apart.symm
  have invocations := eased.invocations_same entered.invocations fun i _ _ =>
    (others i).trans (not_engages_of_free entered.free i).symm
  have same := eased.traversal (List.mem_of_getElem? found) true
  rw [mine t, not_engagesTraversal_of_free entered.free, beq_self_eq_true] at traversals
  have idle := entered.section_free
  have load := entered.load
  unfold effort
  omega

theorem Steady.lockNext_pays (steady : w.Steady compare) {i : InvocationId}
    (effect : Effect w (.lockNext i) w') (sound : w'.fault = none)
    (stepped : w.lockNext i = some w') : w'.effort + 1 ≤ w.effort := by
  have eased := steady.eased effect
  unfold lockNext at stepped
  split at stepped
  · cases stepped
  · rename_i inv found
    split at stepped
    · rename_i ready
      obtain ⟨searching, inside, cleared, free⟩ := ready
      split at stepped
      · cases stepped
        cases sound
      · rename_i b here
        cases stepped
        refine (enter_entered free _).pays_invocation eased found (fun j => rfl) (fun t => rfl) ?_
        have paid := invocationEffort_engaged_le inv searching here
        change 3 * (w.bodies b).trackedObjects.length + 1 + 1 + _ + 1 ≤ _
        omega
    · cases stepped

theorem Steady.janitor_pays (steady : w.Steady compare) {i : InvocationId}
    (effect : Effect w (.janitor i) w') (sound : w'.fault = none)
    (stepped : w.janitor i = some w') : w'.effort + 1 ≤ w.effort := by
  have eased := steady.eased effect
  unfold janitor at stepped
  split at stepped
  · cases stepped
  · rename_i inv found
    split at stepped
    · rename_i phase
      have leaves : w' = w.setInvocation i { inv with phase := .destructing } →
          Move w i inv (.janitor i) { inv with phase := .destructing } →
          w'.effort + 1 ≤ w.effort := by
        rintro rfl move
        exact (ownStep_of_move found move).pays steady effect
          (fun impossible => by cases impossible)
      dsimp only at stepped
      split at stepped
      · rename_i many
        split at stepped
        · cases stepped
        · rename_i taken
          have free : w.critical = none := by simpa using taken
          split at stepped
          · cases stepped
            cases sound
          · rename_i impl present
            split at stepped
            · rename_i other
              cases stepped
              exact leaves rfl (.leave phase (.inr ⟨free, impl, present, other⟩))
            · rename_i current
              obtain ⟨s, state, same⟩ := Option.map_eq_some_iff.mp (not_not.mp current)
              have size : w.listSize inv.localState =
                  (w.heap.connectionBodies impl).list.nodes.length := by
                rw [state]
                simp only [listSize, listOf, same, Heap.connectionBodies]
              have enough : ∀ n, n ≤ (w.heap.connectionBodies impl).list.nodes.length →
                  n + 0 + 1 + w.invocationEffort inv true + 1 ≤ w.invocationEffort inv false := by
                intro n short
                simp only [invocationEffort, phase, if_true, Bool.false_eq_true, if_false, size]
                omega
              cases unique : w.unique impl.sharedState with
              | true =>
                  simp only [unique, if_true, present, Option.some.injEq] at stepped
                  subst stepped
                  refine (enter_entered free _).pays_invocation eased found (fun j => rfl)
                    (fun t => rfl) ?_
                  have short := enough _ (ahead_length (w.heap.connectionBodies impl).list
                    (w.heap.connectionBodies impl).begin)
                  simpa only [sectionEffort, World.enter, present, afterEffort] using short
              | false =>
                  simp only [unique, Bool.false_eq_true, if_false, setHeap,
                    Heap.copyConnectionBodies, Option.some.injEq] at stepped
                  subst stepped
                  refine Entered.pays_invocation ⟨free, rfl, rfl, rfl⟩ eased found (fun j => rfl)
                    (fun t => rfl) ?_
                  apply enough
                  refine Nat.le_trans (ahead_length _ _) (Nat.le_of_eq ?_)
                  simp [World.enter, Heap.connectionBodies, GroupedList.copy]
      · rename_i few
        cases stepped
        exact leaves rfl (.leave phase (.inl few))
    · cases stepped

/-! ### Steps of a traversal and releases -/

/-- A traversal goes on outside of its critical sections. -/
theorem Eased.pays_walk (eased : Eased w w') {t : TraversalId} {tr tr' : Traversal σ}
    (found : w.traversals[t]? = some tr) (traversals : w'.traversals = w.traversals.set t tr')
    (invocations : w'.invocations = w.invocations) (critical : w'.critical = w.critical)
    (heap : w'.heap = w.heap) (load : w'.load ≤ w.load)
    (lower : w.traversalEffort tr' (w.engagesTraversal t) + 1 ≤
      w.traversalEffort tr (w.engagesTraversal t)) : w'.effort + 1 ≤ w.effort := by
  have walks := eased.traversals_set found traversals
    fun u _ => engagesTraversal_congr critical u
  have calls := eased.invocations_same invocations fun i _ _ => engages_congr critical i
  have moved := eased.traversal_of tr' (fun s _ => by simp only [listOf, heap])
    (w.engagesTraversal t)
  have running := eased.section_same critical heap
  rw [engagesTraversal_congr critical t] at walks
  unfold effort
  omega

theorem traversalEffort_walk (tr : Traversal σ) {b : BodyId}
    (here : w.bodyAt tr.localState tr.it = some b) :
    w.traversalEffort { tr with it := w.iteratorAfter tr.localState tr.it } false + 1 ≤
      w.traversalEffort tr false := by
  have progress : tr.localState ≠ none := by
    intro gone
    rw [gone] at here
    cases here
  simp only [traversalEffort, progress, bodiesAhead_here here, weights_cons, weight,
    Bool.false_eq_true, if_false]
  omega

/-- `do_disconnect` passes the connection, disconnects it, or begins to test a signal. -/
theorem doDisconnect_cases {t : TraversalId} {tr : Traversal σ} {b : BodyId} {next : Iterator}
    {argument : SlotArgument σ.Function}
    (sound : (w.doDisconnect t tr b next argument).fault = none) :
    w.doDisconnect t tr b next argument = w.setTraversal t { tr with it := next } ∨
      w.doDisconnect t tr b next argument =
        ((w.setTraversal t { tr with it := next }).nolockDisconnect b).unlock ∨
      ∃ weakPimpl pimpl locked, w.doDisconnect t tr b next argument =
        w.enter (.contains t b weakPimpl pimpl locked) := by
  unfold doDisconnect at sound ⊢
  split
  · exact .inl rfl
  · rename_i connected
    rw [if_neg connected] at sound
    split
    · rename_i gone
      rw [gone] at sound
      cases sound
    · split
      · split
        · exact .inr (.inl rfl)
        · exact .inl rfl
      · split
        · exact .inr (.inl rfl)
        · exact .inl rfl
      · exact .inr (.inr ⟨_, _, _, rfl⟩)
      · exact .inl rfl

theorem Steady.advance_pays (steady : w.Steady compare) {t : TraversalId}
    (effect : Effect w (.advance t) w') (sound : w'.fault = none)
    (stepped : w.advance t = some w') : w'.effort + 1 ≤ w.effort := by
  have eased := steady.eased effect
  have counted := steady.guarding.isolated.counted
  unfold advance at stepped
  split at stepped
  · cases stepped
  · rename_i tr found
    split at stepped
    · cases stepped
    · rename_i progress
      split at stepped
      · cases stepped
        refine eased.pays_walk found rfl rfl rfl rfl (Nat.le_refl _) ?_
        simp only [traversalEffort, progress, if_true, if_false]
        split <;> omega
      · split at stepped
        · cases stepped
        · rename_i taken
          have free : w.critical = none := by simpa using taken
          split at stepped
          · cases stepped
            cases sound
          · rename_i b here
            have moved : w.traversalEffort
                { tr with it := w.iteratorAfter tr.localState tr.it } (w.engagesTraversal t) + 1 ≤
                w.traversalEffort tr (w.engagesTraversal t) := by
              rw [not_engagesTraversal_of_free free]
              exact traversalEffort_walk tr here
            have disconnects : w' = ((w.setTraversal t
                { tr with
                  it := w.iteratorAfter tr.localState tr.it }).nolockDisconnect b).unlock →
                w'.effort + 1 ≤ w.effort := by
              rintro rfl
              refine eased.pays_walk found rfl rfl free.symm rfl ?_ moved
              rw [unlock_load]
              exact counted.disconnect_load b
            have paid := traversalEffort_engaged_le tr here
            have grabs : w' = w.enterGrab (.traversal t) b → w'.effort + 1 ≤ w.effort := by
              rintro rfl
              refine (enter_entered free _).pays_traversal eased found (fun u => rfl)
                (fun i => rfl) ?_
              change 3 * (w.bodies b).trackedObjects.length + 1 + 1 + _ + 1 ≤ _
              omega
            split at stepped
            · cases stepped
              exact disconnects rfl
            · cases stepped
              exact disconnects rfl
            · cases stepped
              rcases doDisconnect_cases sound with same | same | ⟨weakPimpl, pimpl, locked, same⟩
              · rw [same] at eased ⊢
                exact eased.pays_walk found rfl rfl rfl rfl (Nat.le_refl _) moved
              · exact disconnects same
              · rw [same] at eased ⊢
                refine (enter_entered free _).pays_traversal eased found (fun u => rfl)
                  (fun i => rfl) ?_
                change 1 + _ + 1 ≤ _
                omega
            · cases stepped
              exact grabs rfl
            · cases stepped
              exact grabs rfl

theorem Steady.release_pays (steady : w.Steady compare) {n : Nat}
    (effect : Effect w (.release n) w') (stepped : w.release n = some w') :
    w'.effort + 1 ≤ w.effort := by
  have eased := steady.eased effect
  unfold release at stepped
  split at stepped
  · rename_i inside
    cases stepped
    have calls := eased.invocations_same rfl fun i _ _ => rfl
    have walks := eased.traversals_same rfl fun t _ _ => rfl
    have running := eased.section_same rfl rfl
    have fewer : (w.trash.eraseIdx n).length + 1 = w.trash.length := by
      rw [List.length_eraseIdx_of_lt inside]
      omega
    unfold effort load
    dsimp only
    omega
  · cases stepped

/-! ### Steps of the client that holds the mutex -/

theorem finishGrab_critical (client : GrabClient) (b : BodyId) :
    (w.finishGrab client b).critical = none := by
  unfold finishGrab
  cases client with
  | connected => rfl
  | traversal t =>
      dsimp only
      split <;> rfl
  | iterator i =>
      dsimp only
      split
      · rfl
      · split <;> rfl

theorem containsStep_critical (t : TraversalId) (b : BodyId) (pimpl : ObjectId)
    (locked : Option ObjectId) : (w.containsStep t b pimpl locked).critical = none := by
  unfold containsStep
  dsimp only
  split <;> rfl

/-- A client that holds the mutex never stands still. -/
theorem sectionStep_advances (stepped : w.sectionStep = some w') (sound : w'.fault = none) :
    w'.critical ≠ w.critical := by
  unfold sectionStep at stepped
  split at stepped
  · cases stepped
  · rename_i client b todo locked critical
    cases stepped
    rw [critical]
    unfold grabStep
    split
    · rw [finishGrab_critical]
      exact (Option.some_ne_none _).symm
    · rename_i p rest
      cases locked with
      | none =>
          dsimp only
          split
          · rw [finishGrab_critical]
            exact (Option.some_ne_none _).symm
          · intro same
            cases same
      | some found =>
          intro same
          cases same
  · rename_i critical
    cases stepped
    rw [containsStep_critical, critical]
    exact (Option.some_ne_none _).symm
  · rename_i it i count grabTracked after critical
    cases stepped
    rw [critical]
    unfold cleanupStep at sound ⊢
    split
    · rename_i gone
      rw [gone] at sound
      cases sound
    · rename_i impl present
      rw [present] at sound
      dsimp only at sound ⊢
      split
      · rename_i more
        rw [if_pos more] at sound
        split
        · rename_i dangling
          rw [dangling] at sound
          cases sound
        · rename_i b here
          rw [here] at sound
          dsimp only at sound
          split
          · rename_i dead
            rw [if_pos dead] at sound
            split
            · rename_i failed
              rw [failed] at sound
              cases sound
            · intro same
              have equal := (Section.cleanupConnections.inj (Option.some.inj same)).2.1
              exact absurd equal (Nat.succ_ne_self i)
          · intro same
            have equal := (Section.cleanupConnections.inj (Option.some.inj same)).2.1
            exact absurd equal (Nat.succ_ne_self i)
      · rw [finishCleanup_critical]
        exact (Option.some_ne_none _).symm

theorem Eased.pays_section (eased : Eased w w') (invocations : w'.invocations = w.invocations)
    (traversals : w'.traversals = w.traversals)
    (calls : ∀ i inv, w.invocations[i]? = some inv → w'.engages i = w.engages i)
    (walks : ∀ t tr, w.traversals[t]? = some tr → w'.engagesTraversal t = w.engagesTraversal t)
    (lower : w'.sectionEffort + w'.load + 1 ≤ w.sectionEffort + w.load) :
    w'.effort + 1 ≤ w.effort := by
  have same := eased.invocations_same invocations calls
  have same' := eased.traversals_same traversals walks
  unfold effort
  omega

theorem Eased.pays_section_invocation (eased : Eased w w') {i : InvocationId}
    {inv inv' : Invocation σ} (found : w.invocations[i]? = some inv)
    (invocations : w'.invocations = w.invocations.set i inv')
    (traversals : w'.traversals = w.traversals)
    (calls : ∀ j, j ≠ i → w'.engages j = w.engages j)
    (walks : ∀ t tr, w.traversals[t]? = some tr → w'.engagesTraversal t = w.engagesTraversal t)
    (state : inv'.localState = inv.localState)
    (lower : w'.sectionEffort + w.invocationEffort inv' (w'.engages i) + w'.load + 1 ≤
      w.sectionEffort + w.invocationEffort inv (w.engages i) + w.load) :
    w'.effort + 1 ≤ w.effort := by
  have others := eased.invocations_set found invocations calls
  have mine := eased.invocation_of inv' (fun s reads => eased.lists .invocation s
    (List.mem_map.mpr ⟨inv, List.mem_of_getElem? found, state ▸ reads⟩)) (w'.engages i)
  have same := eased.traversals_same traversals walks
  unfold effort
  omega

theorem Eased.pays_section_traversal (eased : Eased w w') {t : TraversalId}
    {tr tr' : Traversal σ} (found : w.traversals[t]? = some tr)
    (traversals : w'.traversals = w.traversals.set t tr')
    (invocations : w'.invocations = w.invocations)
    (walks : ∀ u, u ≠ t → w'.engagesTraversal u = w.engagesTraversal u)
    (calls : ∀ i inv, w.invocations[i]? = some inv → w'.engages i = w.engages i)
    (state : tr'.localState = tr.localState)
    (lower : w'.sectionEffort + w.traversalEffort tr' (w'.engagesTraversal t) + w'.load + 1 ≤
      w.sectionEffort + w.traversalEffort tr (w.engagesTraversal t) + w.load) :
    w'.effort + 1 ≤ w.effort := by
  have others := eased.traversals_set found traversals walks
  have mine := eased.traversal_of tr' (fun s reads => eased.lists .traversal s
    (List.mem_map.mpr ⟨tr, List.mem_of_getElem? found, state ▸ reads⟩)) (w'.engagesTraversal t)
  have same := eased.invocations_same invocations calls
  unfold effort
  omega

theorem grab_sectionEffort {client : GrabClient} {b : BodyId} {todo : List VoidWeakPtr}
    {locked : Option (Option ObjectId)}
    (critical : w.critical = some (.grabTrackedObjects client b todo locked)) :
    w.sectionEffort = 3 * todo.length + (if locked.isNone then 1 else 0) +
      (if client = .connected then 2 else 1) := by
  simp only [sectionEffort, critical]

theorem grab_sectionEffort_pos {client : GrabClient} {b : BodyId} {todo : List VoidWeakPtr}
    {locked : Option (Option ObjectId)}
    (critical : w.critical = some (.grabTrackedObjects client b todo locked)) :
    1 ≤ w.sectionEffort := by
  have last : 1 ≤ if client = GrabClient.connected then 2 else 1 := by split <;> omega
  rw [grab_sectionEffort critical]
  omega

theorem grab_engages {client : GrabClient} {b : BodyId} {todo : List VoidWeakPtr}
    {locked : Option (Option ObjectId)}
    (critical : w.critical = some (.grabTrackedObjects client b todo locked)) (i : InvocationId) :
    w.engages i = decide (client = .iterator i) := by
  cases client <;> simp [engages, critical, beq_eq_decide]

theorem grab_engagesTraversal {client : GrabClient} {b : BodyId} {todo : List VoidWeakPtr}
    {locked : Option (Option ObjectId)}
    (critical : w.critical = some (.grabTrackedObjects client b todo locked)) (t : TraversalId) :
    w.engagesTraversal t = decide (client = .traversal t) := by
  cases client <;> simp [engagesTraversal, critical, beq_eq_decide]

theorem unlock_sectionEffort (u : World σ) : u.unlock.sectionEffort = 0 := rfl

theorem unlock_engages (u : World σ) (i : InvocationId) : u.unlock.engages i = false := rfl

theorem unlock_engagesTraversal (u : World σ) (t : TraversalId) :
    u.unlock.engagesTraversal t = false := rfl

/-- A promotion, or an insertion of what has been promoted. -/
theorem Steady.grab_pays (steady : w.Steady compare) {client : GrabClient} {b : BodyId}
    {p : VoidWeakPtr} {rest : List VoidWeakPtr} {locked : Option ObjectId}
    (critical : w.critical = some (.grabTrackedObjects client b (p :: rest) (some locked)))
    (effect : Effect w .section
      ((w.insertLocked client locked).enter (.grabTrackedObjects client b rest none))) :
    ((w.insertLocked client locked).enter
      (.grabTrackedObjects client b rest none)).effort + 1 ≤ w.effort := by
  have eased := steady.eased effect
  have before := grab_sectionEffort critical
  have calls : ∀ (u : World σ) j, (u.enter (.grabTrackedObjects client b rest none)).engages j =
      w.engages j := by
    intro u j
    rw [grab_engages critical, grab_engages (w := u.enter _) rfl]
  have walks : ∀ (u : World σ) t,
      (u.enter (.grabTrackedObjects client b rest none)).engagesTraversal t =
        w.engagesTraversal t := by
    intro u t
    rw [grab_engagesTraversal critical, grab_engagesTraversal (w := u.enter _) rfl]
  have after : ∀ u : World σ, (u.enter (.grabTrackedObjects client b rest none)).sectionEffort =
      3 * rest.length + 1 + (if client = .connected then 2 else 1) := fun u => rfl
  have shorter : w.sectionEffort = 3 * rest.length + 3 + (if client = .connected then 2 else 1) :=
    before
  have quiet : w.insertLocked client locked = w →
      ((w.insertLocked client locked).enter
        (.grabTrackedObjects client b rest none)).effort + 1 ≤ w.effort := by
    intro same
    rw [same] at eased ⊢
    refine eased.pays_section rfl rfl (fun j _ _ => calls w j) (fun t _ _ => walks w t) ?_
    rw [after, shorter]
    change _ + w.load + 1 ≤ _
    omega
  cases client with
  | connected => exact quiet rfl
  | traversal t => exact quiet rfl
  | iterator i =>
      cases found : w.invocations[i]? with
      | none =>
          apply quiet
          simp only [insertLocked, found]
      | some inv =>
          simp only [insertLocked, found] at eased quiet ⊢
          refine eased.pays_section_invocation found rfl rfl (fun j _ => calls _ j)
            (fun t _ _ => walks _ t) rfl ?_
          rw [after, shorter, calls]
          have longer : w.invocationEffort { inv with trackedPtrs := inv.trackedPtrs ++ [locked] }
              (w.engages i) = w.invocationEffort inv (w.engages i) + 1 := by
            simp only [invocationEffort, List.length_append, List.length_cons, List.length_nil]
            omega
          change _ + _ + w.load + 1 ≤ _
          omega

/-- The grab of a slot for a traversal, or its test for a signal, is over. -/
theorem traversalEffort_settled (tr : Traversal σ) {b : BodyId}
    (here : w.bodyAt tr.localState tr.it = some b) (count : Nat) :
    w.traversalEffort { tr with it := w.iteratorAfter tr.localState tr.it, count := count } false =
      w.traversalEffort tr true := by
  have progress : tr.localState ≠ none := by
    intro gone
    rw [gone] at here
    cases here
  simp only [traversalEffort, progress, bodiesAhead_here here, List.tail_cons, if_true,
    Bool.false_eq_true, if_false]

/-- The iterator of an invocation has found a slot to call. -/
theorem invocationEffort_committed (inv inv' : Invocation σ) (searching : inv.phase = .searching)
    (ready : inv'.phase = .ready) (state : inv'.localState = inv.localState)
    (iter : inv'.iter = inv.iter) (tracked : inv'.trackedPtrs = inv.trackedPtrs) :
    w.invocationEffort inv' false ≤ w.invocationEffort inv true := by
  simp only [invocationEffort, searching, ready, state, iter, tracked, if_true]
  split
  · omega
  · split <;> omega

/-- The iterator of an invocation has passed a slot. -/
theorem invocationEffort_skipped (inv inv' : Invocation σ) (searching : inv.phase = .searching)
    {b : BodyId} (here : w.bodyAt inv.localState inv.iter = some b)
    (phase : inv'.phase = inv.phase) (state : inv'.localState = inv.localState)
    (iter : inv'.iter = w.iteratorAfter inv.localState inv.iter)
    (tracked : inv'.trackedPtrs = inv.trackedPtrs) :
    w.invocationEffort inv' false ≤ w.invocationEffort inv true := by
  simp only [invocationEffort, phase, searching, state, iter, tracked, bodiesAhead_here here,
    List.tail_cons, if_true, Bool.false_eq_true, if_false]
  omega

/-- What an ended grab leaves besides the bodies. -/
theorem Ended.same {b : BodyId} {todo : List VoidWeakPtr} {locked : Option (Option ObjectId)}
    (ended : Ended w b todo locked u) : u.invocations = w.invocations ∧
      u.traversals = w.traversals := by
  obtain ⟨store, rfl⟩ := ended.store
  exact ⟨rfl, rfl⟩

section

variable {b : BodyId} {todo : List VoidWeakPtr} {locked : Option (Option ObjectId)}

theorem Steady.answer_pays (steady : w.Steady compare)
    (critical : w.critical = some (.grabTrackedObjects .connected b todo locked))
    (ended : Ended w b todo locked u)
    (eased : Eased w { u with
      returned := (b, (u.bodies b).connected) :: u.returned
      trash := u.trash ++ [Leftover.body b] }.unlock) :
    { u with
      returned := (b, (u.bodies b).connected) :: u.returned
      trash := u.trash ++ [Leftover.body b] }.unlock.effort + 1 ≤ w.effort := by
  obtain ⟨invocations, traversals⟩ := ended.same
  have before := grab_sectionEffort critical
  have lighter := steady.guarding.isolated.counted.ended_load ended
  have more : ({ u with
      returned := (b, (u.bodies b).connected) :: u.returned
      trash := u.trash ++ [Leftover.body b] } : World σ).load = u.load + 1 := by
    simp [load, Nat.add_assoc]
  refine eased.pays_section invocations traversals (fun i _ _ => ?_) (fun t _ _ => ?_) ?_
  · rw [unlock_engages, grab_engages critical]
    rfl
  · rw [unlock_engagesTraversal, grab_engagesTraversal critical]
    rfl
  · rw [unlock_load, unlock_sectionEffort, more]
    simp only [if_true] at before
    omega

theorem Steady.lost_pays (steady : w.Steady compare) {client : GrabClient}
    (critical : w.critical = some (.grabTrackedObjects client b todo locked))
    (ended : Ended w b todo locked u) (eased : Eased w u.unlock)
    (noCall : ∀ i, client = .iterator i → w.invocations[i]? = none)
    (noWalk : ∀ t, client = .traversal t → w.traversals[t]? = none) :
    u.unlock.effort + 1 ≤ w.effort := by
  obtain ⟨invocations, traversals⟩ := ended.same
  have before := grab_sectionEffort_pos critical
  have lighter := steady.guarding.isolated.counted.ended_load ended
  refine eased.pays_section invocations traversals (fun i inv there => ?_) (fun t tr there => ?_) ?_
  · rw [unlock_engages, grab_engages critical]
    refine (decide_eq_false fun mine => ?_).symm
    rw [noCall i mine] at there
    cases there
  · rw [unlock_engagesTraversal, grab_engagesTraversal critical]
    refine (decide_eq_false fun mine => ?_).symm
    rw [noWalk t mine] at there
    cases there
  · rw [unlock_load, unlock_sectionEffort]
    omega

/-- A section of a traversal is over, and the traversal has moved on. -/
theorem Eased.settle_pays {t : TraversalId} {tr : Traversal σ} (count : Nat)
    (found : w.traversals[t]? = some tr) (here : w.bodyAt tr.localState tr.it = some b)
    (traversals : u.traversals = w.traversals.set t
      { tr with it := w.iteratorAfter tr.localState tr.it, count := count })
    (invocations : u.invocations = w.invocations) (eased : Eased w u.unlock)
    (walks : ∀ s, w.engagesTraversal s = decide (t = s)) (calls : ∀ i, w.engages i = false)
    (lighter : u.load ≤ w.load) (some : 1 ≤ w.sectionEffort) :
    u.unlock.effort + 1 ≤ w.effort := by
  refine eased.pays_section_traversal found traversals invocations (fun s apart => ?_)
    (fun i _ _ => ?_) rfl ?_
  · rw [unlock_engagesTraversal, walks s]
    exact (decide_eq_false apart.symm).symm
  · rw [unlock_engages, calls i]
  · rw [unlock_load, unlock_sectionEffort, unlock_engagesTraversal, walks t, decide_eq_true rfl,
      traversalEffort_settled tr here]
    omega

theorem Eased.commit_pays {i : InvocationId} {inv : Invocation σ} (inv' : Invocation σ)
    (critical : w.critical = some (.grabTrackedObjects (.iterator i) b todo locked))
    (found : w.invocations[i]? = some inv) (invocations : u.invocations = w.invocations.set i inv')
    (traversals : u.traversals = w.traversals) (eased : Eased w u.unlock)
    (state : inv'.localState = inv.localState) (lighter : u.load ≤ w.load)
    (settled : w.invocationEffort inv' false ≤ w.invocationEffort inv true) :
    u.unlock.effort + 1 ≤ w.effort := by
  have before := grab_sectionEffort critical
  refine eased.pays_section_invocation found invocations traversals (fun j apart => ?_)
    (fun t _ _ => ?_) state ?_
  · rw [unlock_engages, grab_engages critical]
    refine (decide_eq_false ?_).symm
    rintro same
    cases same
    exact apart rfl
  · rw [unlock_engagesTraversal, grab_engagesTraversal critical]
    rfl
  · rw [unlock_load, unlock_sectionEffort, unlock_engages, grab_engages critical,
      decide_eq_true rfl]
    simp only [reduceCtorEq, if_false] at before
    omega

end

theorem contains_engages {t : TraversalId} {b : BodyId} {weakPimpl pimpl : ObjectId}
    {locked : Option ObjectId} (critical : w.critical = some (.contains t b weakPimpl pimpl locked))
    (i : InvocationId) : w.engages i = false := by
  simp only [engages, critical]

theorem contains_engagesTraversal {t : TraversalId} {b : BodyId} {weakPimpl pimpl : ObjectId}
    {locked : Option ObjectId} (critical : w.critical = some (.contains t b weakPimpl pimpl locked))
    (s : TraversalId) : w.engagesTraversal s = decide (t = s) := by
  simp only [engagesTraversal, critical, beq_eq_decide]

theorem contains_sectionEffort {t : TraversalId} {b : BodyId} {weakPimpl pimpl : ObjectId}
    {locked : Option ObjectId}
    (critical : w.critical = some (.contains t b weakPimpl pimpl locked)) :
    w.sectionEffort = 1 := by
  simp only [sectionEffort, critical]

/-! ### Rounds of a cleanup -/

section

variable {it : Iterator} {i count : Nat} {grabTracked : Bool} {after : AfterCleanup σ}
  {impl : SignalImpl} {b : BodyId}

theorem cleanup_sectionEffort
    (critical : w.critical = some (.cleanupConnections it i count grabTracked after))
    (present : w.heap.impl = some impl) : w.sectionEffort =
      ((w.heap.connectionBodies impl).list.ahead it).length + w.afterEffort impl after + 1 := by
  simp only [sectionEffort, critical, present]

theorem cleanup_engages
    (critical : w.critical = some (.cleanupConnections it i count grabTracked after))
    {it' : Iterator} {i' : Nat} (critical' : w'.critical =
      some (.cleanupConnections it' i' count grabTracked after)) (j : InvocationId) :
    w'.engages j = w.engages j := by
  unfold engages
  rw [critical, critical']
  cases after <;> rfl

theorem cleanup_engagesTraversal
    (critical : w.critical = some (.cleanupConnections it i count grabTracked after))
    (t : TraversalId) : w.engagesTraversal t = false := by
  simp only [engagesTraversal, critical]

/-- What follows costs no more for a part of the list. -/
theorem Eased.afterEffort_le (eased : Eased w w') (after : AfterCleanup σ) {impl' : SignalImpl}
    (part : (w'.heap.connectionBodies impl').list.nodes.Sublist
      (w.heap.connectionBodies impl).list.nodes) :
    w'.afterEffort impl' after ≤ w.afterEffort impl after := by
  cases after with
  | connect arguments => exact Nat.le_refl _
  | forceCleanup j => exact Nat.le_refl _
  | invoke =>
      have values : (w'.heap.connectionBodies impl').list.values.Sublist
          (w.heap.connectionBodies impl).list.values := part.map Prod.snd
      have lighter : w'.weights (w'.heap.connectionBodies impl').list.values ≤
          w.weights (w'.heap.connectionBodies impl').list.values :=
        World.weights_le fun b member => eased.lighter b ⟨_, values.subset member⟩
      have fewer : w.weights (w'.heap.connectionBodies impl').list.values ≤
          w.weights (w.heap.connectionBodies impl).list.values :=
        total_sublist w.weight values
      have shorter := part.length_le
      simp only [afterEffort]
      omega

/-- The cleanup goes on behind the connection that it has examined. -/
theorem Eased.round_pays (eased : Eased w w')
    (critical : w.critical = some (.cleanupConnections it i count grabTracked after))
    (present : w.heap.impl = some impl)
    (here : (w.heap.connectionBodies impl).list.value? it = some b)
    (critical' : w'.critical = some (.cleanupConnections
      ((w.heap.connectionBodies impl).list.next it) (i + 1) count grabTracked after))
    (present' : w'.heap.impl = some impl) (invocations : w'.invocations = w.invocations)
    (traversals : w'.traversals = w.traversals) (lighter : w'.load ≤ w.load)
    (part : (w'.heap.connectionBodies impl).list.nodes.Sublist
      (w.heap.connectionBodies impl).list.nodes)
    (ahead : (w'.heap.connectionBodies impl).list.ahead
        ((w.heap.connectionBodies impl).list.next it) =
      (w.heap.connectionBodies impl).list.ahead
        ((w.heap.connectionBodies impl).list.next it)) : w'.effort + 1 ≤ w.effort := by
  refine eased.pays_section invocations traversals (fun j _ _ => cleanup_engages critical critical' j)
    (fun t _ _ => ?_) ?_
  · rw [cleanup_engagesTraversal critical, cleanup_engagesTraversal critical']
  · obtain ⟨node, later, all, next⟩ := ahead_here here
    have rest := eased.afterEffort_le after part
    rw [cleanup_sectionEffort critical present, cleanup_sectionEffort critical' present', ahead,
      next, all, List.length_cons]
    omega

theorem newInvocation_effort (w : World σ) (impl : SignalImpl) :
    w.invocationEffort (w.newInvocation impl) false ≤
      w.weights (w.heap.connectionBodies impl).list.values +
        (w.heap.connectionBodies impl).list.nodes.length + 7 := by
  have ahead : w.bodiesAhead (some impl.sharedState) (w.heap.connectionBodies impl).begin =
      (w.heap.connectionBodies impl).list.values :=
    congrArg (List.map Prod.snd) ahead_begin
  have size : w.listSize (some impl.sharedState) =
      (w.heap.connectionBodies impl).list.nodes.length := rfl
  have tail := weights_tail (w := w) (w.heap.connectionBodies impl).list.values
  simp only [invocationEffort, newInvocation, ahead, size]
  by_cases empty : (w.heap.connectionBodies impl).begin = (w.heap.connectionBodies impl).past
  · have atEnd : (w.heap.connectionBodies impl).begin.node = none := congrArg Iterator.node empty
    simp only [if_pos empty, atEnd, if_true, List.length_nil]
    omega
  · simp only [if_neg empty, Bool.false_eq_true, if_false, List.length_nil]
    omega

/-- The cleanup is over, and what follows begins. -/
theorem Steady.stop_pays (steady : w.Steady compare)
    (critical : w.critical = some (.cleanupConnections it i count grabTracked after))
    (present : w.heap.impl = some impl) (eased : Eased w (w.finishCleanup impl it after)) :
    (w.finishCleanup impl it after).effort + 1 ≤ w.effort := by
  have before := cleanup_sectionEffort critical present
  have ended := finishCleanup_critical w impl it after
  have noSection : (w.finishCleanup impl it after).sectionEffort = 0 := by
    simp only [sectionEffort, ended]
  have noCall : ∀ j, (w.finishCleanup impl it after).engages j = false :=
    not_engages_of_free ended
  have walks : ∀ t tr, w.traversals[t]? = some tr →
      (w.finishCleanup impl it after).engagesTraversal t = w.engagesTraversal t := by
    intro t _ _
    rw [not_engagesTraversal_of_free ended, cleanup_engagesTraversal critical]
  cases after with
  | connect arguments =>
      refine eased.pays_section rfl rfl (fun j _ _ => ?_) walks ?_
      · rw [noCall]
        simp only [engages, critical]
      · have more : (w.finishCleanup impl it (.connect arguments)).load ≤ w.load + 1 := by
          simp only [finishCleanup, unlock_load]
          have added : (w.toBodyStore.newConnectionBody arguments.slot
              (groupKeyOf arguments)).slotsHeld ≤ w.toBodyStore.slotsHeld + 1 :=
            BodyStore.newConnectionBody_slotsHeld _ _
          simp only [load, insertConnection, setHeap]
          omega
        simp only [afterEffort] at before
        omega
  | invoke =>
      have joined := newInvocation_effort (w.finishCleanup impl it .invoke)
        { impl with garbageCollectorIt := it }
      have old : total (fun j inv => (w.finishCleanup impl it .invoke).invocationEffort inv
          ((w.finishCleanup impl it .invoke).engages j)) w.invocations ≤ w.invocationsEffort := by
        refine total_le _ _ fun j inv found => ?_
        have idle : w.engages j = false := by simp only [engages, critical]
        rw [noCall j, idle]
        exact eased.invocation (List.mem_of_getElem? found) false
      have calls : (w.finishCleanup impl it .invoke).invocationsEffort =
          total (fun j inv => (w.finishCleanup impl it .invoke).invocationEffort inv
            ((w.finishCleanup impl it .invoke).engages j)) w.invocations +
          (w.finishCleanup impl it .invoke).invocationEffort
            ((w.finishCleanup impl it .invoke).newInvocation
              { impl with garbageCollectorIt := it }) false :=
        total_append _ _ _
      have same := eased.traversals_same rfl walks
      have load : (w.finishCleanup impl it .invoke).load = w.load := by
        simp only [finishCleanup, unlock_load]
        rfl
      have cost : (w.finishCleanup impl it .invoke).afterEffort
          { impl with garbageCollectorIt := it } .invoke = w.afterEffort impl .invoke := rfl
      simp only [afterEffort] at cost before
      unfold effort
      omega
  | forceCleanup j =>
      have mine : w.engages j = true := by
        simp only [engages, critical, beq_self_eq_true]
      cases found : w.invocations[j]? with
      | none =>
          simp only [finishCleanup, found] at eased noSection noCall walks ⊢
          refine eased.pays_section rfl rfl (fun k inv there => ?_) walks ?_
          · rw [noCall]
            have apart : j ≠ k := by
              rintro rfl
              rw [found] at there
              cases there
            simp [engages, critical, apart]
          · rw [noSection, unlock_load]
            change 0 + w.load + 1 ≤ _
            omega
      | some inv =>
          obtain ⟨janitor, many⟩ :=
            steady.guarding.isolated.positioned.criticalPlaced.forced critical found
          simp only [finishCleanup, found] at eased noSection noCall walks ⊢
          refine eased.pays_section_invocation found rfl rfl (fun k apart => ?_) walks rfl ?_
          · rw [noCall]
            simp [engages, critical, apart.symm]
          · rw [noSection, noCall, mine, unlock_load]
            simp only [invocationEffort, janitor, if_true]
            change _ + w.load + 1 ≤ _
            omega

end

theorem Steady.section_pays (steady : w.Steady compare) (effect : Effect w .section w')
    (sound : w'.fault = none) (stepped : w.sectionStep = some w') : w'.effort + 1 ≤ w.effort := by
  have advances := sectionStep_advances stepped sound
  have taken : w.critical ≠ none := by
    intro free
    simp [sectionStep, free] at stepped
  have eased := steady.eased effect
  have counted := steady.guarding.isolated.counted
  have checked : ∀ grabTracked b, (w.checkExpired grabTracked b).load ≤ w.load :=
    counted.checkExpired_load
  have whole : ∀ nodes : List (Nat × BodyId), nodes.Sublist nodes := List.Sublist.refl
  cases effect with
  | sweepStart impl it count grabTracked after free => exact absurd free taken
  | copyAndSweep impl grabTracked after free => exact absurd free taken
  | grabStart client b free => exact absurd free taken
  | move i inv inv' found move => cases move
  | outside w' outside => exact absurd outside.critical advances
  | fault u f cause u_eq => cases sound
  | promote client b p rest critical alive =>
      refine eased.pays_section rfl rfl (fun i _ _ => ?_) (fun t _ _ => ?_) ?_
      · rw [grab_engages critical, grab_engages (w := w.enter _) rfl]
      · rw [grab_engagesTraversal critical, grab_engagesTraversal (w := w.enter _) rfl]
      · rw [grab_sectionEffort critical, grab_sectionEffort (w := w.enter _) rfl]
        simp only [Option.isNone_none, Option.isNone_some, if_true, Bool.false_eq_true, if_false]
        change _ + w.load + 1 ≤ _
        omega
  | keep client b p rest locked critical =>
      exact steady.grab_pays critical (.keep client b p rest locked critical)
  | answer b todo locked u critical ended => exact steady.answer_pays critical ended eased
  | count t b todo locked u tr critical ended found =>
      obtain ⟨_, _, _, here⟩ := steady.walking.criticalWalked.grab critical found
      obtain ⟨invocations, traversals⟩ := ended.same
      have lighter := counted.ended_load ended
      refine Eased.settle_pays (if (u.bodies b).connected then tr.count + 1 else tr.count) found here
        ?_ invocations eased (fun s => ?_) (fun i => ?_) lighter (grab_sectionEffort_pos critical)
      · rw [World.setTraversal, traversals]
      · rw [grab_engagesTraversal critical]
        simp
      · rw [grab_engages critical]
        rfl
  | commit i b locked inv critical found connected unblocked =>
      obtain ⟨searching, inside, here⟩ :=
        steady.guarding.isolated.positioned.criticalPlaced.grab critical found
      exact Eased.commit_pays _ critical found rfl rfl eased rfl (counted.activate_load _ _)
        (invocationEffort_committed inv _ searching rfl rfl rfl rfl)
  | skip i b todo locked u inv critical ended found blocked =>
      obtain ⟨searching, inside, here⟩ :=
        steady.guarding.isolated.positioned.criticalPlaced.grab critical found
      obtain ⟨invocations, traversals⟩ := ended.same
      have kept : ∀ connected, (World.counted inv connected).phase = inv.phase ∧
          (World.counted inv connected).localState = inv.localState ∧
          (World.counted inv connected).trackedPtrs = inv.trackedPtrs := by
        intro connected
        cases connected <;> exact ⟨rfl, rfl, rfl⟩
      obtain ⟨phase, state, tracked⟩ := kept (u.bodies b).connected
      have lighter := counted.ended_load ended
      refine Eased.commit_pays
        { World.counted inv (u.bodies b).connected with
          iter := w.iteratorAfter inv.localState inv.iter }
        critical found ?_ traversals eased state lighter
        (invocationEffort_skipped inv _ searching here phase state rfl tracked)
      rw [World.setInvocation, invocations]
  | lost client b todo locked u critical ended missing =>
      refine steady.lost_pays critical ended eased (fun i mine => ?_) (fun t mine => ?_)
      · subst mine
        exact missing
      · subst mine
        exact missing
  | contains t b weakPimpl pimpl locked u tr critical tested found =>
      obtain ⟨_, _, here, _⟩ := steady.walking.criticalWalked.contains critical found
      have lighter := counted.tested_load tested
      obtain ⟨store, rfl⟩ := tested_store tested
      exact Eased.settle_pays _ found here rfl rfl eased (contains_engagesTraversal critical)
        (contains_engages critical) lighter (Nat.le_of_eq (contains_sectionEffort critical).symm)
  | containsLost t b weakPimpl pimpl locked u critical tested missing =>
      have lighter := counted.tested_load tested
      obtain ⟨store, rfl⟩ := tested_store tested
      refine eased.pays_section rfl rfl (fun i _ _ => ?_) (fun s tr there => ?_) ?_
      · rw [contains_engages critical]
        rfl
      · rw [contains_engagesTraversal critical]
        refine (decide_eq_false ?_).symm
        rintro rfl
        rw [missing] at there
        cases there
      · rw [unlock_load, unlock_sectionEffort, contains_sectionEffort critical]
        omega
  | sweepErase it i count grabTracked after impl b list next critical present inside more here
      dead erased =>
      obtain ⟨same, rfl⟩ := GroupedList.erase_some erased
      have current : ((w.heap.setConnectionBodies impl list).connectionBodies impl) = list := by
        simp [Heap.setConnectionBodies, Heap.connectionBodies]
      have lighter := checked grabTracked b
      obtain ⟨store, unheard⟩ := checkExpired_store w grabTracked b
      rw [unheard] at eased lighter ⊢
      refine eased.round_pays critical present here rfl present rfl rfl lighter ?_ ?_
      · change ((w.heap.setConnectionBodies impl list).connectionBodies impl).list.nodes.Sublist _
        rw [current, same]
        exact List.filter_sublist
      · change ((w.heap.setConnectionBodies impl list).connectionBodies impl).list.ahead _ = _
        rw [current, same]
        exact ahead_erase here
  | sweepSkip it i count grabTracked after impl b critical present inside more here connected =>
      have lighter := checked grabTracked b
      obtain ⟨store, unheard⟩ := checkExpired_store w grabTracked b
      rw [unheard] at eased lighter ⊢
      exact eased.round_pays critical present here rfl present rfl rfl lighter (whole _) rfl
  | sweepEnd it i count grabTracked after impl critical present done =>
      exact steady.stop_pays critical present eased

/-- Every step that carries on is paid for, but for the credit of a slot that throws. -/
theorem Steady.pays (steady : w.Steady compare) (carries : w.carriesOn a = true)
    (sound' : w'.fault = none) (stepped : w.step a = some w') :
    w'.effort + 1 ≤ w.effort + credit a := by
  obtain ⟨sound, effect⟩ := step_effect stepped
  have counted := steady.guarding.isolated.counted
  have mine : ∀ {i : InvocationId}, (∃ inv inv', OwnStep w i inv a inv' w') → a ≠ .section →
      w'.effort + 1 ≤ w.effort + credit a := by
    rintro i ⟨inv, inv', own⟩ outside
    exact own.pays steady effect outside
  simp only [World.step, sound, Option.isSome_none, Bool.false_eq_true, if_false] at stepped
  cases a with
  | «section» => exact steady.section_pays effect sound' stepped
  | clearTracked i => exact mine (clearTracked_own stepped) (fun same => by cases same)
  | lockNext i => exact steady.lockNext_pays effect sound' stepped
  | reachEnd i => exact mine (reachEnd_own counted sound' stepped) (fun same => by cases same)
  | dereference i =>
      exact mine (dereference_own sound' carries stepped) (fun same => by cases same)
  | slotReturns i result => exact mine (slotReturns_own stepped) (fun same => by cases same)
  | slotThrows i expiredSlot =>
      exact mine (slotThrows_own counted sound' stepped) (fun same => by cases same)
  | increment i => exact mine (increment_own sound' stepped) (fun same => by cases same)
  | finish i => exact mine (finish_own stepped) (fun same => by cases same)
  | janitor i => exact steady.janitor_pays effect sound' stepped
  | destroyCache i => exact mine (destroyCache_own counted stepped) (fun same => by cases same)
  | releaseState i => exact mine (releaseState_own stepped) (fun same => by cases same)
  | advance t => exact steady.advance_pays effect sound' stepped
  | release n => exact steady.release_pays effect stepped
  | _ => cases carries

end World

end Signals2
