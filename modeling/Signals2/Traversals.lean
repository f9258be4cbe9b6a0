/-
Traversals of the list: `disconnect_all_slots`, `disconnect`, `num_slots` and
`empty`.  A traversal walks the list it started on, node by node; behind it, and
beside its range, no live connection is left that it was to disconnect.
-/

import Signals2.TrackedObjects
import Signals2.CurrentList

namespace Signals2

open LinkedLists OrderedInsertion

variable {σ : SignalTemplate}

namespace World

variable {w w' : World σ} {a : Action σ} {compare : σ.Group → σ.Group → Bool}

/-- Connected, with no tracked object expired. -/
def live (w : World σ) (b : BodyId) : Bool :=
  (w.bodies b).connected && !w.slotExpired b

/-- The connection is one that the operation disconnects. -/
def Wanted (compare : σ.Group → σ.Group → Bool) (w : World σ) (kind : TraversalKind σ)
    (b : BodyId) : Prop :=
  match kind with
  | .disconnectAllSlots => True
  | .disconnectGroup group => Equivalent compare (w.keyOf b) (.groupedSlots group)
  | .doDisconnect (.functor equal) =>
      ∃ slot, (w.bodies b).slot = some slot ∧ functorMatches (.functor equal) slot = true
  | .doDisconnect (.signal pimpl) =>
      ∃ slot, (w.bodies b).slot = some slot ∧ slot.slotFunction = .plain (.weakSignal pimpl)
  | .numSlots => False
  | .empty => False

/-- The operation has nothing to do at this connection. -/
def Settled (compare : σ.Group → σ.Group → Bool) (w : World σ) (kind : TraversalKind σ)
    (b : BodyId) : Prop := w.live b = true → ¬ w.Wanted compare kind b

/-! ### Live connections stay what they are -/

theorem live_iff {b : BodyId} :
    w.live b = true ↔ (w.bodies b).connected = true ∧ w.slotExpired b = false := by
  simp [live]

theorem slotExpired_of_slot {b : BodyId} {slot : Slot σ} (held : (w.bodies b).slot = some slot) :
    w.slotExpired b = slot.trackedObjects.any w.expired := by
  simp only [slotExpired, ConnectionBody.trackedObjects, held]

theorem unexpired_of_slot {b : BodyId} {slot : Slot σ} (held : (w.bodies b).slot = some slot)
    (unexpired : w.slotExpired b = false) {p : VoidWeakPtr} (tracked : p ∈ slot.trackedObjects) :
    w.owned p.object = true := by
  rw [slotExpired_of_slot held, List.any_eq_false] at unexpired
  exact not_expired_iff.mp (by simpa using unexpired p tracked)

/-- A connection that is live after a step was live before, with the same slot. -/
theorem Isolated.live_before (isolated : w.Isolated) (effect : Effect w a w') {b : BodyId}
    (below : b < w.nextBody) (now : w'.live b = true) :
    w.live b = true ∧ ∃ slot, (w'.bodies b).slot = some slot ∧ (w.bodies b).slot = some slot := by
  obtain ⟨connected, unexpired⟩ := live_iff.mp now
  obtain ⟨slot, held⟩ := (isolated.counted.step effect).slot_of_connected connected
  have before := effect.slot_kept below held
  refine ⟨live_iff.mpr ⟨effect.connected_kept below connected, ?_⟩, slot, held, before⟩
  rw [slotExpired_of_slot before, List.any_eq_false]
  intro p tracked gone
  have owned := unexpired_of_slot held unexpired tracked
  rw [effect.stays (expired_iff.mp gone)] at owned
  cases owned

theorem Settled.later {kind : TraversalKind σ} {b : BodyId}
    (settled : w.Settled compare kind b) (isolated : w.Isolated) (effect : Effect w a w')
    (below : b < w.nextBody) : w'.Settled compare kind b := by
  intro now wanted
  obtain ⟨before, slot, held, held'⟩ := isolated.live_before effect below now
  refine settled before ?_
  cases kind with
  | disconnectAllSlots => trivial
  | disconnectGroup group =>
      simp only [Wanted, effect.keyOf_kept below] at wanted
      exact wanted
  | doDisconnect argument =>
      cases argument with
      | functor equal =>
          obtain ⟨other, has, same⟩ := wanted
          cases held.symm.trans has
          exact ⟨slot, held', same⟩
      | signal pimpl =>
          obtain ⟨other, has, same⟩ := wanted
          cases held.symm.trans has
          exact ⟨slot, held', same⟩
  | numSlots => exact wanted
  | empty => exact wanted

theorem settled_of_disconnected {kind : TraversalKind σ} {b : BodyId}
    (disconnected : (w.bodies b).connected = false) : w.Settled compare kind b := by
  intro now _
  rw [(live_iff.mp now).1] at disconnected
  cases disconnected

/-! ### Steps of a traversal -/

/-- What a step makes of one traversal. -/
inductive Stride (w : World σ) (t : TraversalId) (tr : Traversal σ) (w' : World σ) :
    Traversal σ → Prop
  | walk {tr' : Traversal σ} (walk : Walk w tr tr') : Stride w t tr w' tr'
  | disconnect (b : BodyId) (inside : tr.it ≠ tr.endIt)
      (here : w.bodyAt tr.localState tr.it = some b)
      (gone : (w'.bodies b).connected = false) :
      Stride w t tr w' { tr with it := w.iteratorAfter tr.localState tr.it }
  | count (b : BodyId) (todo : List VoidWeakPtr) (locked : Option (Option ObjectId))
      (critical : w.critical = some (.grabTrackedObjects (.traversal t) b todo locked))
      (count : Nat) :
      Stride w t tr w' { tr with it := w.iteratorAfter tr.localState tr.it, count := count }
  | contains (b : BodyId) (weakPimpl pimpl : ObjectId) (locked : Option ObjectId)
      (critical : w.critical = some (.contains t b weakPimpl pimpl locked))
      (tested : locked = some pimpl → (w'.bodies b).connected = false) :
      Stride w t tr w' { tr with it := w.iteratorAfter tr.localState tr.it }

inductive TraversalChange (w : World σ) (w' : World σ) : Prop
  | same (traversals : w'.traversals = w.traversals)
  | stride (t : TraversalId) (tr tr' : Traversal σ) (found : w.traversals[t]? = some tr)
      (how : Stride w t tr w' tr') (traversals : w'.traversals = w.traversals.set t tr')
  | join (impl : SignalImpl) (kind : TraversalKind σ) (present : w.heap.impl = some impl)
      (traversals : w'.traversals = w.traversals ++ [w.newTraversal impl kind])
      (lists : ∀ s, w'.listOf s = w.listOf s)

theorem Effect.traversals (effect : Effect w a w') : TraversalChange w w' := by
  cases effect with
  | traverse impl kind free present =>
      exact .join impl kind present rfl fun _ => rfl
  | keep client b p rest locked critical =>
      unfold insertLocked
      split
      · split <;> exact .same rfl
      · exact .same rfl
  | answer b todo locked u critical ended =>
      obtain ⟨store, rfl⟩ := ended.store
      exact .same rfl
  | count t b todo locked u tr critical ended found =>
      refine .stride t tr _ found (.count b todo locked critical
        (if (u.bodies b).connected then tr.count + 1 else tr.count)) ?_
      obtain ⟨store, rfl⟩ := ended.store
      rfl
  | skip i b todo locked u inv critical ended found blocked =>
      obtain ⟨store, rfl⟩ := ended.store
      exact .same rfl
  | lost client b todo locked u critical ended missing =>
      obtain ⟨store, rfl⟩ := ended.store
      exact .same rfl
  | contains t b weakPimpl pimpl locked u tr critical tested found =>
      refine .stride t tr _ found (.contains b weakPimpl pimpl locked critical ?_) ?_
      · intro same
        rw [if_pos same] at tested
        subst tested
        exact BodyStore.nolockDisconnect_connected b
      · obtain ⟨store, rfl⟩ := tested_store tested
        rfl
  | containsLost t b weakPimpl pimpl locked u critical tested missing =>
      obtain ⟨store, rfl⟩ := tested_store tested
      exact .same rfl
  | sweepErase it i count grabTracked after impl b list next critical present inside more here
      dead erased =>
      obtain ⟨store, same⟩ := checkExpired_store w grabTracked b
      rw [same]
      exact .same rfl
  | sweepSkip it i count grabTracked after impl b critical present inside more here connected =>
      obtain ⟨store, same⟩ := checkExpired_store w grabTracked b
      rw [same]
      exact .same rfl
  | sweepEnd it i count grabTracked after impl critical present done =>
      unfold finishCleanup
      cases after with
      | connect arguments => exact .same rfl
      | invoke => exact .same rfl
      | forceCleanup j =>
          dsimp only
          split <;> exact .same rfl
  | walkDisconnect t tr b free found inside here targets =>
      refine .stride t tr _ found (.disconnect b inside here ?_) rfl
      exact BodyStore.nolockDisconnect_connected b
  | walk t tr tr' found walk => exact .stride t tr tr' found (.walk walk) rfl
  | outside w' outside => exact .same outside.traversals
  | fault u f cause u_eq =>
      rcases u_eq with rfl | ⟨grabTracked, b, rfl⟩
      · exact .same rfl
      · obtain ⟨store, same⟩ := checkExpired_store w grabTracked b
        rw [same]
        exact .same rfl
  | _ => exact .same rfl

/-! ### Where a traversal stands -/

structure Walked (compare : σ.Group → σ.Group → Bool) (w : World σ) (tr : Traversal σ)
    (s : StateId) (before rest after : List (Nat × BodyId)) : Prop where
  nodes : (w.listOf s).list.nodes = before ++ (rest ++ after)
  it : tr.it = (w.listOf s).list.iteratorTo (rest ++ after)
  endIt : tr.endIt = (w.listOf s).list.iteratorTo after
  passed : ∀ node ∈ before, w.Settled compare tr.kind node.2
  spared : ∀ node ∈ after, w.Settled compare tr.kind node.2
  group : ∀ group, tr.kind = .disconnectGroup group → ∀ node ∈ rest,
    Equivalent compare (w.keyOf node.2) (.groupedSlots group)

/-- A traversal that has not released its copy of the shared state is on its way. -/
def Underway (compare : σ.Group → σ.Group → Bool) (w : World σ) (tr : Traversal σ) : Prop :=
  ∀ s, tr.localState = some s → ∃ before rest after, Walked compare w tr s before rest after

theorem Walked.ended {tr : Traversal σ} {s : StateId} {before rest after : List (Nat × BodyId)}
    (walked : Walked compare w tr s before rest after) (done : tr.it = tr.endIt) : rest = [] := by
  have tail : (w.listOf s).list.nodes = (before ++ rest) ++ after := by
    rw [walked.nodes, List.append_assoc]
  have same := iteratorTo_injective walked.nodes tail
    (walked.it.symm.trans (done.trans walked.endIt))
  exact List.append_left_eq_self.mp same

/-- Inside its range a traversal stands on the first of the remaining nodes. -/
theorem Walked.here {tr : Traversal σ} {s : StateId} {before rest after : List (Nat × BodyId)}
    (walked : Walked compare w tr s before rest after) (state : tr.localState = some s)
    (inside : tr.it ≠ tr.endIt) :
    ∃ node later, rest = node :: later ∧ w.bodyAt tr.localState tr.it = some node.2 ∧
      w.iteratorAfter tr.localState tr.it =
        (w.listOf s).list.iteratorTo (later ++ after) := by
  cases rest with
  | nil => exact absurd (walked.it.trans walked.endIt.symm) inside
  | cons node later =>
      refine ⟨node, later, rfl, ?_, ?_⟩
      · rw [state, walked.it]
        exact value?_iteratorTo walked.nodes
      · rw [state, walked.it]
        exact next_iteratorTo walked.nodes

theorem Walked.later {tr : Traversal σ} {s : StateId} {before rest after : List (Nat × BodyId)}
    (walked : Walked compare w tr s before rest after) (isolated : w.Isolated)
    (effect : Effect w a w') (list : w'.listOf s = w.listOf s) :
    Walked compare w' tr s before rest after := by
  have below : ∀ node ∈ before ++ (rest ++ after), node.2 < w.nextBody := by
    intro node member
    rw [← walked.nodes] at member
    exact isolated.listed node.2 ⟨_, List.mem_map_of_mem member⟩
  exact {
    nodes := by rw [list]; exact walked.nodes
    it := by rw [list]; exact walked.it
    endIt := by rw [list]; exact walked.endIt
    passed := fun node member =>
      (walked.passed node member).later isolated effect (below node (by simp [member]))
    spared := fun node member =>
      (walked.spared node member).later isolated effect (below node (by simp [member]))
    group := fun group kind node member => by
      rw [effect.keyOf_kept (below node (by simp [member]))]
      exact walked.group group kind node member }

/-- The traversal moves on from a node that is settled. -/
theorem Walked.pass {tr tr' : Traversal σ} {s : StateId} {node : Nat × BodyId}
    {before later after : List (Nat × BodyId)}
    (walked : Walked compare w tr s before (node :: later) after)
    (settled : w.Settled compare tr.kind node.2) (kind : tr'.kind = tr.kind)
    (endIt : tr'.endIt = tr.endIt)
    (it : tr'.it = (w.listOf s).list.iteratorTo (later ++ after)) :
    Walked compare w tr' s (before ++ [node]) later after where
  nodes := by
    rw [walked.nodes]
    simp
  it := it
  endIt := endIt.trans walked.endIt
  passed other member := by
    rw [kind]
    rcases List.mem_append.mp member with old | new
    · exact walked.passed other old
    · cases List.mem_singleton.mp new
      exact settled
  spared other member := by
    rw [kind]
    exact walked.spared other member
  group group same other member :=
    walked.group group (kind.symm.trans same) other (List.mem_cons_of_mem node member)

/-- The critical section of a traversal works for the body it stands on. -/
def SectionWalked (w : World σ) : Prop :=
  match w.critical with
  | some (.grabTrackedObjects (.traversal t) b _ _) =>
      ∃ tr, w.traversals[t]? = some tr ∧ (tr.kind = .numSlots ∨ tr.kind = .empty) ∧
        tr.answered = false ∧ tr.it ≠ tr.endIt ∧ w.bodyAt tr.localState tr.it = some b
  | some (.contains t b weakPimpl pimpl locked) =>
      ∃ tr, w.traversals[t]? = some tr ∧ tr.kind = .doDisconnect (.signal pimpl) ∧
        tr.it ≠ tr.endIt ∧ w.bodyAt tr.localState tr.it = some b ∧
        (∀ slot, (w.bodies b).slot = some slot →
          slot.slotFunction = .plain (.weakSignal weakPimpl)) ∧
        (locked = some weakPimpl ∨ locked = none ∧ w.owned weakPimpl = false)
  | _ => True

theorem SectionWalked.grab (walked : w.SectionWalked) {t : TraversalId} {b : BodyId}
    {todo : List VoidWeakPtr} {locked : Option (Option ObjectId)} {tr : Traversal σ}
    (critical : w.critical = some (.grabTrackedObjects (.traversal t) b todo locked))
    (found : w.traversals[t]? = some tr) :
    (tr.kind = .numSlots ∨ tr.kind = .empty) ∧ tr.answered = false ∧ tr.it ≠ tr.endIt ∧
      w.bodyAt tr.localState tr.it = some b := by
  simp only [SectionWalked, critical] at walked
  obtain ⟨other, found', facts⟩ := walked
  cases found.symm.trans found'
  exact facts

theorem SectionWalked.contains (walked : w.SectionWalked) {t : TraversalId} {b : BodyId}
    {weakPimpl pimpl : ObjectId} {locked : Option ObjectId} {tr : Traversal σ}
    (critical : w.critical = some (.contains t b weakPimpl pimpl locked))
    (found : w.traversals[t]? = some tr) :
    tr.kind = .doDisconnect (.signal pimpl) ∧ tr.it ≠ tr.endIt ∧
      w.bodyAt tr.localState tr.it = some b ∧
      (∀ slot, (w.bodies b).slot = some slot →
        slot.slotFunction = .plain (.weakSignal weakPimpl)) ∧
      (locked = some weakPimpl ∨ locked = none ∧ w.owned weakPimpl = false) := by
  simp only [SectionWalked, critical] at walked
  obtain ⟨other, found', facts⟩ := walked
  cases found.symm.trans found'
  exact facts

structure Walking (compare : σ.Group → σ.Group → Bool) (w : World σ) : Prop where
  underway : ∀ tr ∈ w.traversals, Underway compare w tr
  criticalWalked : w.SectionWalked

/-! ### Steps keep it there -/

theorem Underway.later {tr : Traversal σ} (underway : Underway compare w tr)
    (isolated : w.Isolated) (effect : Effect w a w')
    (kept : ∀ s, tr.localState = some s → w'.listOf s = w.listOf s) : Underway compare w' tr := by
  intro s state
  obtain ⟨before, rest, after, walked⟩ := underway s state
  exact ⟨before, rest, after, walked.later isolated effect (kept s state)⟩

/-- A traversal is still on its way after it has dealt with one node. -/
private theorem Underway.pass {tr tr' : Traversal σ} (underway : Underway compare w tr)
    (isolated : w.Isolated) (effect : Effect w a w')
    (kept : ∀ s, tr.localState = some s → w'.listOf s = w.listOf s) {b : BodyId}
    (inside : tr.it ≠ tr.endIt) (here : w.bodyAt tr.localState tr.it = some b)
    (settled : w'.Settled compare tr.kind b) (state : tr'.localState = tr.localState)
    (kind : tr'.kind = tr.kind) (endIt : tr'.endIt = tr.endIt)
    (it : tr'.it = w.iteratorAfter tr.localState tr.it) : Underway compare w' tr' := by
  intro s held
  rw [state] at held
  obtain ⟨before, rest, after, walked⟩ := underway s held
  obtain ⟨node, later, rfl, here', next⟩ := walked.here held inside
  cases here.symm.trans here'
  refine ⟨before ++ [node], later, after, ?_⟩
  refine (walked.later isolated effect (kept s held)).pass settled kind endIt ?_
  rw [it, next, kept s held]

/-- The signal that a connected slot wraps is not the argument, or has expired. -/
private theorem settled_of_contains {b : BodyId} {weakPimpl pimpl : ObjectId}
    {locked : Option ObjectId} (isolated : w.Isolated) (effect : Effect w a w')
    (below : b < w.nextBody)
    (wraps : ∀ slot, (w.bodies b).slot = some slot →
      slot.slotFunction = .plain (.weakSignal weakPimpl))
    (origin : locked = some weakPimpl ∨ locked = none ∧ w.owned weakPimpl = false)
    (tested : locked = some pimpl → (w'.bodies b).connected = false) :
    w'.Settled compare (.doDisconnect (.signal pimpl)) b := by
  intro now wanted
  obtain ⟨before, slot, held, held'⟩ := isolated.live_before effect below now
  obtain ⟨other, has, same⟩ := wanted
  cases held.symm.trans has
  have wrapped := wraps slot held'
  rw [same] at wrapped
  cases wrapped
  rcases origin with promoted | ⟨_, gone⟩
  · have disconnected := tested promoted
    rw [(live_iff.mp now).1] at disconnected
    cases disconnected
  · have tracked := slot.tracksSignal weakPimpl (by rw [same]; rfl)
    have owned := unexpired_of_slot held' (live_iff.mp before).2 tracked
    rw [VoidWeakPtr.object, gone] at owned
    cases owned

theorem Walking.stride {t : TraversalId} {tr tr' : Traversal σ} (walking : w.Walking compare)
    (isolated : w.Isolated) (effect : Effect w a w') (found : w.traversals[t]? = some tr)
    (kept : ∀ s, tr.localState = some s → w'.listOf s = w.listOf s)
    (how : Stride w t tr w' tr') : Underway compare w' tr' := by
  have underway := walking.underway tr (List.mem_of_getElem? found)
  have below : ∀ b, w.bodyAt tr.localState tr.it = some b → b < w.nextBody := fun b here =>
    isolated.listed b (bodyAt_listed here)
  cases how with
  | walk walk =>
      cases walk with
      | dead argument b free kind inside here disconnected =>
          have settled : w.Settled compare tr.kind b := settled_of_disconnected disconnected
          exact underway.pass isolated effect kept inside here
            (settled.later isolated effect (below b here)) rfl rfl rfl rfl
      | other argument b slot free kind inside here held differs noSignal =>
          have settled : w.Settled compare tr.kind b := by
            intro now wanted
            rw [kind] at wanted
            cases argument with
            | functor equal =>
                obtain ⟨other, has, same⟩ := wanted
                cases held.symm.trans has
                rw [differs] at same
                cases same
            | signal pimpl =>
                obtain ⟨other, has, same⟩ := wanted
                cases held.symm.trans has
                exact noSignal pimpl pimpl same rfl
          exact underway.pass isolated effect kept inside here
            (settled.later isolated effect (below b here)) rfl rfl rfl rfl
      | finish progress finished =>
          intro s state
          cases state
  | disconnect b inside here gone =>
      exact underway.pass isolated effect kept inside here (settled_of_disconnected gone)
        rfl rfl rfl rfl
  | count b todo locked critical count =>
      obtain ⟨kind, _, inside, here⟩ := walking.criticalWalked.grab critical found
      refine underway.pass isolated effect kept inside here ?_ rfl rfl rfl rfl
      intro now wanted
      rcases kind with kind | kind <;> rw [kind] at wanted <;> exact wanted
  | contains b weakPimpl pimpl locked critical tested =>
      obtain ⟨kind, inside, here, wraps, origin⟩ := walking.criticalWalked.contains critical found
      refine underway.pass isolated effect kept inside here ?_ rfl rfl rfl rfl
      rw [kind]
      exact settled_of_contains isolated effect (below b here) wraps origin tested

/-- A new traversal has its whole range before it, and nothing else to do. -/
theorem newTraversal_underway {impl : SignalImpl} (order : StrictWeak compare)
    (consistent : (w.heap.connectionBodies impl).Consistent compare w.keyOf)
    (kind : TraversalKind σ) : Underway compare w (w.newTraversal impl kind) := by
  have whole : traversalBounds (w.heap.connectionBodies impl) kind =
      ((w.heap.connectionBodies impl).list.begin, (w.heap.connectionBodies impl).list.past) →
      (∀ group, kind ≠ .disconnectGroup group) →
      Underway compare w (w.newTraversal impl kind) := by
    intro bounds ungrouped s state
    cases state
    refine ⟨[], (w.heap.connectionBodies impl).list.nodes, [], ?_⟩
    exact {
      nodes := by rw [List.nil_append, List.append_nil]; rfl
      it := by rw [newTraversal, bounds, List.append_nil]; rfl
      endIt := by rw [newTraversal, bounds]; rfl
      passed := fun node member => by cases member
      spared := fun node member => by cases member
      group := fun group same => absurd same (ungrouped group) }
  cases kind with
  | disconnectGroup group =>
      intro s state
      cases state
      obtain ⟨below, same, above, split, under, equivalent, beyond, lower, upper⟩ :=
        consistent.class_range order (.groupedSlots group)
      refine ⟨below, same, above, ?_⟩
      exact {
        nodes := by rw [← List.append_assoc]; exact split
        it := lower
        endIt := upper
        passed := fun node member _ wanted => by
          have keyed : Equivalent compare (w.keyOf node.2) (.groupedSlots group) := wanted
          have notBelow := keyed.1
          rw [under node member] at notBelow
          cases notBelow
        spared := fun node member _ wanted => by
          have keyed : Equivalent compare (w.keyOf node.2) (.groupedSlots group) := wanted
          have notAbove := keyed.2
          rw [beyond node member] at notAbove
          cases notAbove
        group := fun other kind node member => by
          cases kind
          exact equivalent node member }
  | disconnectAllSlots => exact whole rfl fun group same => by cases same
  | doDisconnect argument => exact whole rfl fun group same => by cases same
  | numSlots => exact whole rfl fun group same => by cases same
  | empty => exact whole rfl fun group same => by cases same

/-- The section goes on, and its traversal has not been touched. -/
private theorem SectionWalked.congr (walked : w.SectionWalked)
    (critical : w'.critical = w.critical)
    (traversals : ∀ t tr, w.traversals[t]? = some tr →
      (∃ b todo locked, w.critical = some (.grabTrackedObjects (.traversal t) b todo locked)) ∨
        (∃ b weakPimpl pimpl locked,
          w.critical = some (.contains t b weakPimpl pimpl locked)) →
      w'.traversals[t]? = some tr)
    (kept : ∀ tr ∈ w.traversals, ∀ it, w'.bodyAt tr.localState it = w.bodyAt tr.localState it)
    (slots : ∀ b, Listed w.heap b → ∀ slot, (w'.bodies b).slot = some slot →
      (w.bodies b).slot = some slot)
    (stays : ∀ o, w.owned o = false → w'.owned o = false) : w'.SectionWalked := by
  unfold SectionWalked at walked ⊢
  rw [critical]
  cases taken : w.critical with
  | none => trivial
  | some entered =>
      rw [taken] at walked
      cases entered with
      | cleanupConnections it i count grabTracked after => trivial
      | grabTrackedObjects client b todo locked =>
          cases client with
          | iterator i => trivial
          | connected => trivial
          | traversal t =>
              obtain ⟨tr, found, kind, answered, inside, here⟩ := walked
              refine ⟨tr, traversals t tr found (.inl ⟨b, todo, locked, taken⟩), kind, answered,
                inside, ?_⟩
              rw [kept tr (List.mem_of_getElem? found)]
              exact here
      | contains t b weakPimpl pimpl locked =>
          obtain ⟨tr, found, kind, inside, here, wraps, origin⟩ := walked
          refine ⟨tr, traversals t tr found (.inr ⟨b, weakPimpl, pimpl, locked, taken⟩), kind,
            inside, ?_, fun slot held => ?_, origin.imp id fun gone => ⟨gone.1, stays weakPimpl gone.2⟩⟩
          · rw [kept tr (List.mem_of_getElem? found)]
            exact here
          · exact wraps slot (slots b (bodyAt_listed here) slot held)

/-- A traversal inside a critical section of its own takes no step of its own. -/
private theorem Walk.idle {t : TraversalId} {tr tr' : Traversal σ} (walked : w.SectionWalked)
    (found : w.traversals[t]? = some tr) (walk : Walk w tr tr')
    (engaged :
      (∃ b todo locked, w.critical = some (.grabTrackedObjects (.traversal t) b todo locked)) ∨
        ∃ b weakPimpl pimpl locked,
          w.critical = some (.contains t b weakPimpl pimpl locked)) : False := by
  have taken : w.critical ≠ none := by
    rcases engaged with ⟨b, todo, locked, critical⟩ | ⟨b, weakPimpl, pimpl, locked, critical⟩ <;>
      rw [critical] <;> exact fun none => by cases none
  cases walk with
  | dead argument b free kind inside here disconnected => exact taken free
  | other argument b slot free kind inside here held differs noSignal => exact taken free
  | finish progress finished =>
      rcases engaged with ⟨b, todo, locked, critical⟩ | ⟨b, weakPimpl, pimpl, locked, critical⟩
      · obtain ⟨_, answered, inside, _⟩ := walked.grab critical found
        rcases finished with atEnd | found'
        · exact inside atEnd
        · rw [answered] at found'
          cases found'
      · obtain ⟨kind, inside, _⟩ := walked.contains critical found
        rcases finished with atEnd | answered
        · exact inside atEnd
        · simp [Traversal.answered, kind] at answered

/-- While it works, nobody else changes the list of the traversal. -/
theorem SectionWalked.step (walked : w.SectionWalked) (isolated : w.Isolated)
    (effect : Effect w a w') : w'.SectionWalked := by
  have slots : ∀ b, Listed w.heap b → ∀ slot, (w'.bodies b).slot = some slot →
      (w.bodies b).slot = some slot := fun b listed slot held =>
    effect.slot_kept (isolated.listed b listed) held
  have stays : ∀ o, w.owned o = false → w'.owned o = false := fun o gone => effect.stays gone
  have congr : w'.critical = w.critical → w'.traversals = w.traversals →
      (∀ localState it, w'.bodyAt localState it = w.bodyAt localState it) →
      w'.SectionWalked := by
    intro critical traversals lists
    refine walked.congr critical (fun t tr found _ => ?_) (fun tr _ => lists tr.localState)
      slots stays
    rw [traversals]
    exact found
  cases effect with
  | grabStart client b free ready =>
      cases client with
      | iterator i => trivial
      | connected => trivial
      | traversal t => exact ready
  | promote client b p rest critical alive =>
      cases client with
      | iterator i => trivial
      | connected => trivial
      | traversal t =>
          simp only [SectionWalked, critical] at walked
          exact walked
  | keep client b p rest locked critical =>
      cases client with
      | iterator i =>
          unfold insertLocked
          dsimp only
          split <;> trivial
      | connected => trivial
      | traversal t =>
          simp only [SectionWalked, critical] at walked
          exact walked
  | containsStart t tr b weakPimpl pimpl free found inside here kind connected slot held wrapped =>
      refine ⟨tr, found, kind, inside, here, fun other held' => ?_, ?_⟩
      · cases held.symm.trans held'
        exact wrapped
      · cases owned : w.owned weakPimpl with
        | true => exact .inl (lockWeakPtr_alive rfl (not_expired_iff.mpr owned))
        | false => exact .inr ⟨by simp [lockWeakPtr, VoidWeakPtr.object, owned],
            stays weakPimpl owned⟩
  | assignCombiner combiner impl free present unique => exact congr rfl rfl fun _ _ => rfl
  | replaceCombiner combiner impl free present shared =>
      have still : (w.setHeap (w.heap.replaceCombiner impl combiner)).critical = none := free
      simp only [SectionWalked, still]
  | start impl free present shared => exact congr rfl rfl fun _ _ => rfl
  | traverse impl kind free present =>
      refine walked.congr rfl (fun t tr found _ => ?_) (fun _ _ _ => rfl) slots stays
      exact (List.getElem?_append_left (List.getElem?_eq_some_iff.mp found).1).trans found
  | destroy impl present => exact congr rfl rfl fun _ _ => rfl
  | move i inv inv' found move => exact congr rfl rfl fun _ _ => rfl
  | walk t tr tr' found walk =>
      refine walked.congr rfl (fun other old held engaged => ?_) (fun _ _ _ => rfl) slots stays
      by_cases same : t = other
      · subst same
        cases found.symm.trans held
        exact (walk.idle walked found engaged).elim
      · exact (List.getElem?_set_ne same).trans held
  | outside w' outside =>
      refine congr outside.critical outside.traversals fun localState it => ?_
      simp only [bodyAt, listOf, outside.heap]
  | fault u f cause u_eq =>
      rcases u_eq with rfl | ⟨grabTracked, b, rfl⟩
      · exact congr rfl rfl fun _ _ => rfl
      · obtain ⟨store, same⟩ := checkExpired_store w grabTracked b
        rw [same] at congr ⊢
        exact congr rfl rfl fun _ _ => rfl
  | sweepEnd it i count grabTracked after impl critical present done =>
      unfold finishCleanup
      cases after with
      | connect arguments => trivial
      | invoke => trivial
      | forceCleanup k =>
          dsimp only
          split <;> trivial
  | _ => trivial

theorem Walking.step (walking : w.Walking compare) (order : StrictWeak compare)
    (current : w.Current compare) (isolated : w.Isolated) (apart : w.ListsApart .traversal)
    (effect : Effect w a w') : w'.Walking compare := by
  have lists : ∀ tr ∈ w.traversals, ∀ s, tr.localState = some s → w'.listOf s = w.listOf s := by
    intro tr member s state
    exact (apart.kept isolated.sharing effect.change
      (List.mem_map.mpr ⟨tr, member, state⟩)).2
  refine ⟨?_, walking.criticalWalked.step isolated effect⟩
  intro tr member
  cases effect.traversals with
  | same traversals =>
      rw [traversals] at member
      exact (walking.underway tr member).later isolated effect (lists tr member)
  | stride t old new found how traversals =>
      rw [traversals] at member
      rcases List.mem_or_eq_of_mem_set member with other | rfl
      · exact (walking.underway tr other).later isolated effect (lists tr other)
      · exact walking.stride isolated effect found (lists old (List.mem_of_getElem? found)) how
  | join impl kind present traversals unchanged =>
      rw [traversals] at member
      rcases List.mem_append.mp member with old | new
      · exact (walking.underway tr old).later isolated effect (lists tr old)
      · cases List.mem_singleton.mp new
        exact (newTraversal_underway order (current.consistent impl present) kind).later isolated
          effect fun s _ => unchanged s

theorem construct_walking (combiner : σ.Combiner)
    (defaultCompare groupCompare : σ.Group → σ.Group → Bool) (owners : ObjectId → Nat) :
    (World.construct combiner defaultCompare groupCompare owners).Walking compare where
  underway tr member := by cases member
  criticalWalked := trivial

end World

end Signals2
