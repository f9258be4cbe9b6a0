/-
The last references.  While a client holds the mutex no slot object loses its last
owner, and a tracked object loses it in one way only: a pointer promoted by a client
that throws it away is the last one left when the mutex is still locked.
-/

import Signals2.SlotOwnership
import Signals2.ListChanges
import Signals2.Traversals

namespace Signals2

open LinkedLists

variable {σ : SignalTemplate}

namespace World

variable {w w' : World σ} {a : Action σ} {b : BodyId}

/-! ### What the mutex protects -/

theorem locksMutex_section (locks : w.locksMutex a = true) (taken : w.critical ≠ none) :
    a = .section := by
  have busy : w.critical.isNone = false := by simpa [Option.isSome_iff_ne_none] using taken
  cases a <;> simp_all [locksMutex]

theorem Progress.locked_state {i : InvocationId} {inv inv' : Invocation σ}
    (locks : w.locksMutex a = true) (how : Progress w i inv a inv') :
    inv'.localState = inv.localState := by
  cases how with
  | move move =>
      cases move with
      | releaseState phase cleared => cases locks
      | _ => rfl
  | skip b todo locked u critical ended blocked => exact counted_state inv _
  | _ => rfl

/-- A traversal gives up its local copy at the end of its walk only. -/
theorem Effect.walkers (effect : Effect w a w') :
    (∀ s, some s ∈ w.readers .traversal → some s ∈ w'.readers .traversal) ∨
      ∃ t tr, a = .advance t ∧ w.traversals[t]? = some tr ∧
        (tr.it = tr.endIt ∨ tr.answered = true) := by
  have same : ∀ u : World σ, u.traversals = w.traversals →
      ∀ s, some s ∈ w.readers .traversal → some s ∈ u.readers .traversal := by
    intro u traversals s member
    simpa only [readers, traversals] using member
  have set_ : ∀ (u : World σ) t (tr tr' : Traversal σ), w.traversals[t]? = some tr →
      u.traversals = w.traversals.set t tr' → tr'.localState = tr.localState →
      ∀ s, some s ∈ w.readers .traversal → some s ∈ u.readers .traversal := by
    intro u t tr tr' found traversals state s member
    simp only [readers, traversals] at member ⊢
    rw [IndexedLists.map_set_same found state]
    exact member
  cases effect with
  | walk t tr tr' found walk =>
      cases walk with
      | dead argument b free kind inside here disconnected =>
          exact .inl (set_ _ t tr _ found rfl rfl)
      | other argument b slot free kind inside here held differs noSignal =>
          exact .inl (set_ _ t tr _ found rfl rfl)
      | finish progress finished => exact .inr ⟨t, tr, rfl, found, finished⟩
  | traverse impl kind free present =>
      left
      intro s member
      simp only [readers, List.map_append]
      exact List.mem_append_left _ member
  | keep client b p rest locked critical =>
      left
      apply same
      unfold insertLocked
      split
      · split <;> rfl
      · rfl
  | answer b todo locked u critical ended =>
      obtain ⟨store, rfl⟩ := ended.store
      exact .inl (same _ rfl)
  | count t b todo locked u tr critical ended found =>
      obtain ⟨store, rfl⟩ := ended.store
      exact .inl (set_ _ t tr _ found rfl rfl)
  | skip i b todo locked u inv critical ended found blocked =>
      obtain ⟨store, rfl⟩ := ended.store
      exact .inl (same _ rfl)
  | lost client b todo locked u critical ended missing =>
      obtain ⟨store, rfl⟩ := ended.store
      exact .inl (same _ rfl)
  | contains t b weakPimpl pimpl locked u tr critical tested found =>
      obtain ⟨store, rfl⟩ := tested_store tested
      exact .inl (set_ _ t tr _ found rfl rfl)
  | containsLost t b weakPimpl pimpl locked u critical tested missing =>
      obtain ⟨store, rfl⟩ := tested_store tested
      exact .inl (same _ rfl)
  | sweepErase it i count grabTracked after impl b list next critical present inside more here
      dead erased =>
      left
      apply same
      obtain ⟨store, checked⟩ := checkExpired_store w grabTracked b
      rw [checked]
      rfl
  | sweepSkip it i count grabTracked after impl b critical present inside more here connected =>
      left
      apply same
      obtain ⟨store, checked⟩ := checkExpired_store w grabTracked b
      rw [checked]
      rfl
  | sweepEnd it i count grabTracked after impl critical present done =>
      left
      apply same
      unfold finishCleanup
      cases after with
      | connect arguments => rfl
      | invoke => rfl
      | forceCleanup j =>
          dsimp only
          split <;> rfl
  | walkDisconnect t tr b free found inside here targets =>
      exact .inl (set_ _ t tr _ found rfl rfl)
  | outside w' outside => exact .inl (same _ outside.traversals)
  | fault u f cause u_eq =>
      left
      apply same
      rcases u_eq with rfl | ⟨grabTracked, b, rfl⟩
      · rfl
      · obtain ⟨store, checked⟩ := checkExpired_store w grabTracked b
        rw [checked]
        rfl
  | _ => exact .inl (same _ rfl)

/-- No local copy of the shared state is released. -/
theorem locked_readers (locks : w.locksMutex a = true) (effect : Effect w a w')
    {kind : ReaderKind} {s : StateId} (member : some s ∈ w.readers kind) :
    some s ∈ w'.readers kind := by
  cases kind with
  | traversal =>
      rcases effect.walkers with kept | ⟨t, tr, rfl, found, finished⟩
      · exact kept s member
      · simp only [locksMutex, found, Bool.and_eq_true, decide_eq_true_eq,
          Bool.not_eq_true'] at locks
        rcases finished with atEnd | answered
        · exact absurd atEnd locks.2.1
        · rw [answered] at locks
          cases locks.2.2
  | invocation =>
      cases effect.invocations with
      | same invocations => simpa only [readers, invocations] using member
      | progress i inv inv' found how invocations =>
          simp only [readers, invocations] at member ⊢
          rw [IndexedLists.map_set_same found (how.locked_state locks)]
          exact member
      | join impl present invocations lists =>
          simp only [readers, invocations, List.map_append] at member ⊢
          exact List.mem_append_left _ member

/-- Nothing but a cleanup takes a body from the current list, and only a disconnected one. -/
theorem ListEffect.connected_kept (effect : ListEffect w a w') {impl impl' : SignalImpl}
    (present : w.heap.impl = some impl) (present' : w'.heap.impl = some impl')
    (member : b ∈ (w.heap.connectionBodies impl).list.values)
    (connected : (w'.bodies b).connected = true) :
    b ∈ (w'.heap.connectionBodies impl').list.values := by
  cases effect with
  | keep current cleanup =>
      obtain ⟨other, held, same, _⟩ := current impl' present'
      cases present.symm.trans held
      rw [same]
      exact member
  | start other it i count grabTracked after free held position heap critical =>
      rw [heap] at present' ⊢
      cases present.symm.trans present'
      exact member
  | copy other grabTracked after held heap critical =>
      rw [heap] at present' ⊢
      cases present.symm.trans held
      cases present'
      simp only [Heap.connectionBodies, Heap.copyConnectionBodies, Function.update_self,
        LinkedList.values, GroupedList.copy_nodes]
      exact member
  | erase other it i i' count grabTracked after c list next before held here dead erased heap
      critical =>
      rw [heap] at present' ⊢
      cases present.symm.trans held
      cases present.symm.trans present'
      obtain ⟨earlier, later, values, rest⟩ := erase_values here
      have apart : b ≠ c := by
        intro same
        rw [same, dead] at connected
        cases connected
      simp only [Heap.connectionBodies, Heap.setConnectionBodies, Function.update_self,
        (GroupedList.erase_some erased).1]
      unfold Heap.connectionBodies at values rest member
      rw [rest]
      rw [values] at member
      simpa [apart] using member
  | skip other it i i' count grabTracked after c before held here heap critical =>
      rw [heap] at present' ⊢
      cases present.symm.trans present'
      exact member
  | save other it i count grabTracked after before held heap critical =>
      rw [heap] at present' ⊢
      cases present.symm.trans held
      cases present'
      exact member
  | connect other it i count grabTracked arguments before held heap bodies connects critical =>
      rw [heap] at present' ⊢
      cases present.symm.trans held
      cases present'
      simp only [Heap.connectionBodies, Heap.setConnectionBodies, Heap.setGarbageCollectorIt,
        Function.update_self]
      apply (pushConnection_values arguments w.nextBody).mem_iff.mpr
      exact List.mem_cons_of_mem _ member

/-- Nor from the list of a local copy of the shared state. -/
theorem Effect.connected_listed (effect : Effect w a w') (sharing : w.Sharing) {s : StateId}
    (below : s < w.heap.nextState) (member : b ∈ (w.listOf s).list.values)
    (connected : (w'.bodies b).connected = true) : b ∈ (w'.listOf s).list.values := by
  have bounded := sharing.heap.lists s below
  unfold listOf at member ⊢
  rw [effect.change.heap.states below]
  rcases effect.change.heap.list_origin bounded with
    same | ⟨impl, impl', present, present', state, states, here⟩
  · rw [same]
    exact member
  · rw [here] at member
    have kept := effect.listEffect.connected_kept present present' member connected
    unfold Heap.connectionBodies at kept
    rw [state, states, ← here] at kept
    exact kept

theorem locked_held (locks : w.locksMutex a = true) (effect : Effect w a w')
    (sharing : w.Sharing) (held : w.Held b) (connected : (w'.bodies b).connected = true) :
    w'.Held b := by
  obtain ⟨s, live, member⟩ := held
  rcases live with current | ⟨kind, reader⟩
  · obtain ⟨impl, present, rfl⟩ := Option.map_eq_some_iff.mp current
    have stays : a ≠ .destroy := by
      intro same
      subst same
      cases locks
    have still : w'.heap.impl ≠ none :=
      effect.change.heap.present stays (by rw [present]; exact fun none => by cases none)
    obtain ⟨impl', present'⟩ := Option.ne_none_iff_exists'.mp still
    exact held_of_current present'
      (effect.listEffect.connected_kept present present' member connected)
  · exact ⟨s, .inr ⟨kind, locked_readers locks effect reader⟩,
      effect.connected_listed sharing (sharing.readers kind s reader) member connected⟩

/-! ### The slots -/

/-- What every run keeps in which `set_combiner` meets no invocation in progress. -/
structure Owning (w : World σ) : Prop where
  isolated : w.Isolated
  sectionWalked : w.SectionWalked
  promoting : ∀ client b locked,
    w.critical ≠ some (.grabTrackedObjects client b [] (some locked))

theorem construct_owning (combiner : σ.Combiner)
    (defaultCompare groupCompare : σ.Group → σ.Group → Bool) (owners : ObjectId → Nat) :
    (World.construct combiner defaultCompare groupCompare owners).Owning where
  isolated := construct_isolated combiner defaultCompare groupCompare owners
  sectionWalked := trivial
  promoting client b locked impossible := by cases impossible

theorem Owning.step (owning : w.Owning) (alone : CombinerSetAlone w a)
    (stepped : w.step a = some w') : w'.Owning := by
  have effect := (step_effect stepped).2
  refine ⟨owning.isolated.step alone.unread stepped,
    owning.sectionWalked.step owning.isolated effect, ?_⟩
  intro client b locked after
  cases effect.sectionChange with
  | same critical => exact owning.promoting client b locked (critical.symm.trans after)
  | free critical => cases critical.symm.trans after
  | sweep it i count grabTracked rest critical => cases critical.symm.trans after
  | grab other c ready => simp [enterGrab, enter] at after
  | promote other c p rest before alive => cases after
  | keep other c p rest object before => cases after
  | contains t c weakPimpl pimpl => cases after

/-- A disconnected body that still has its slot is in the list of an invocation. -/
theorem Isolated.held_of_slot (isolated : w.Isolated)
    (slot : (w.bodies b).slot.isSome = true) (disconnected : (w.bodies b).connected = false) :
    w.Held b := by
  have balanced := isolated.counted.balanced b
  have positive := balanced.slot.mp slot
  have counted := balanced.refcount
  rw [disconnected] at counted
  have active : 0 < w.activeSlots.count (some b) := by
    simpa [counted] using positive
  obtain ⟨inv, member, same⟩ := List.mem_map.mp (List.count_pos_iff.mp active)
  obtain ⟨it, here⟩ := (isolated.positioned.placed inv member).held b same
  have reader : inv.localState ∈ w.readers .invocation := List.mem_map_of_mem member
  exact held_of_bodyAt reader here

/-- The list of its client holds the body that a critical section works for. -/
theorem Owning.section_held (owning : w.Owning) (kept : w.sectionBody = some b) :
    w.Held b ∨ ∃ todo locked,
      w.critical = some (.grabTrackedObjects .connected b todo locked) := by
  have placed := owning.isolated.positioned.criticalPlaced
  have walked := owning.sectionWalked
  cases critical : w.critical with
  | none => simp [sectionBody, critical] at kept
  | some entered =>
      cases entered with
      | cleanupConnections it i count grabTracked after => simp [sectionBody, critical] at kept
      | contains t c weakPimpl pimpl locked =>
          left
          simp only [sectionBody, critical, Option.some.injEq] at kept
          subst kept
          simp only [SectionWalked, critical] at walked
          obtain ⟨tr, found, _, _, here, _⟩ := walked
          have reader : tr.localState ∈ w.readers .traversal :=
            List.mem_map_of_mem (List.mem_of_getElem? found)
          exact held_of_bodyAt reader here
      | grabTrackedObjects client c todo locked =>
          simp only [sectionBody, critical, Option.some.injEq] at kept
          subst kept
          cases client with
          | connected => exact .inr ⟨todo, locked, rfl⟩
          | iterator i =>
              left
              simp only [SectionPlaced, critical] at placed
              obtain ⟨inv, found, _, _, here⟩ := placed
              have reader : inv.localState ∈ w.readers .invocation :=
                List.mem_map_of_mem (List.mem_of_getElem? found)
              exact held_of_bodyAt reader here
          | traversal t =>
              left
              simp only [SectionWalked, critical] at walked
              obtain ⟨tr, found, _, _, _, here⟩ := walked
              have reader : tr.localState ∈ w.readers .traversal :=
                List.mem_map_of_mem (List.mem_of_getElem? found)
              exact held_of_bodyAt reader here

/-- `connection::connected` keeps its promoted body until it returns. -/
theorem grabStep_connected (todo : List VoidWeakPtr) (locked : Option (Option ObjectId)) :
    (w.grabStep .connected b todo locked).sectionBody = some b ∨
      Leftover.body b ∈ (w.grabStep .connected b todo locked).trash := by
  have answered : ∀ u : World σ, Leftover.body b ∈ (u.finishGrab .connected b).trash := by
    intro u
    simp [finishGrab, unlock]
  unfold grabStep
  cases todo with
  | nil => exact .inr (answered w)
  | cons p rest =>
      cases locked with
      | none =>
          dsimp only
          split
          · exact .inr (answered _)
          · exact .inl rfl
      | some object => exact .inl rfl

theorem Owning.alive_kept (owning : w.Owning) (locks : w.locksMutex a = true)
    (stepped : w.step a = some w') (alive : w.bodyAlive b = true)
    (connected : (w'.bodies b).connected = true) : w'.bodyAlive b = true := by
  obtain ⟨sound, effect⟩ := step_effect stepped
  have held : w.Held b → w'.bodyAlive b = true := fun before =>
    bodyAlive_iff.mpr (.inl (locked_held locks effect owning.isolated.sharing before connected))
  rcases bodyAlive_iff.mp alive with before | kept | promoted
  · exact held before
  · rcases owning.section_held kept with before | ⟨todo, locked, critical⟩
    · exact held before
    · have same := locksMutex_section locks (by simp [critical])
      subst same
      simp only [World.step, sound, Option.isSome_none, Bool.false_eq_true, if_false,
        sectionStep, critical, Option.some.injEq] at stepped
      subst stepped
      apply bodyAlive_iff.mpr
      exact .inr (grabStep_connected todo locked)
  · apply bodyAlive_iff.mpr
    exact .inr (.inr ((locked_slotsKept locks stepped).promoted b promoted))

theorem Owning.slot_kept (owning : w.Owning) (owning' : w'.Owning)
    (locks : w.locksMutex a = true) (stepped : w.step a = some w')
    (owned : w.slotOwned b = true) : w'.slotOwned b = true := by
  have kept := locked_slotsKept locks stepped
  rcases slotOwned_iff.mp owned with ⟨alive, slot⟩ | pending
  · rcases kept.slots b slot with still | released
    · apply slotOwned_iff.mpr
      left
      refine ⟨?_, still⟩
      cases connected : (w'.bodies b).connected with
      | true => exact owning.alive_kept locks stepped alive connected
      | false =>
          apply bodyAlive_iff.mpr
          exact .inl (owning'.isolated.held_of_slot still connected)
    · exact slotOwned_iff.mpr (.inr released)
  · exact slotOwned_iff.mpr (.inr (kept.pending b pending))

/-! ### The tracked objects -/

/-- An owner other than the promoted pointer of the section in progress. -/
def heldElsewhere (w : World σ) (o : ObjectId) : Bool :=
  0 < w.owners o || w.invocations.any fun inv => inv.trackedPtrs.contains (some o)

/-- The promoted object that the section in progress gives up again with the mutex
still locked; an iterator keeps what it promotes. -/
def discarded (w : World σ) : Option ObjectId :=
  match w.critical with
  | some (.grabTrackedObjects (.iterator _) _ _ _) => none
  | _ => w.lockedObject

theorem owned_eq (w : World σ) (o : ObjectId) :
    w.owned o = (w.heldElsewhere o || w.lockedObject == some o) := rfl

theorem heldElsewhere_iff {o : ObjectId} : w.heldElsewhere o = true ↔
    0 < w.owners o ∨ ∃ inv ∈ w.invocations, some o ∈ inv.trackedPtrs := by
  simp [heldElsewhere]

theorem Progress.locked_tracked {i : InvocationId} {inv inv' : Invocation σ} {o : ObjectId}
    (locks : w.locksMutex a = true) (how : Progress w i inv a inv')
    (held : some o ∈ inv.trackedPtrs) : some o ∈ inv'.trackedPtrs := by
  cases how with
  | move move =>
      cases move with
      | clear nonempty outside phase => cases locks
      | _ => exact held
  | insert b p rest locked critical => exact List.mem_append_left _ held
  | skip b todo locked u critical ended blocked =>
      cases (u.bodies b).connected <;> exact held
  | _ => exact held

theorem locked_elsewhere (locks : w.locksMutex a = true) (stepped : w.step a = some w')
    {o : ObjectId} (held : w.heldElsewhere o = true) : w'.heldElsewhere o = true := by
  have effect := (step_effect stepped).2
  apply heldElsewhere_iff.mpr
  rcases heldElsewhere_iff.mp held with outside | ⟨inv, member, tracked⟩
  · left
    rw [(locked_slotsKept locks stepped).owners]
    exact outside
  · right
    cases effect.invocations with
    | same invocations =>
        rw [invocations]
        exact ⟨inv, member, tracked⟩
    | join impl present invocations lists =>
        rw [invocations]
        exact ⟨inv, List.mem_append_left _ member, tracked⟩
    | progress i old new found how invocations =>
        rw [invocations]
        obtain ⟨n, bound, here⟩ := List.mem_iff_getElem.mp member
        by_cases same : i = n
        · subst same
          have whole := (List.getElem?_eq_some_iff.mp found).2
          rw [here] at whole
          subst whole
          exact ⟨new, List.mem_set bound new, how.locked_tracked locks tracked⟩
        · refine ⟨inv, ?_, tracked⟩
          apply List.mem_of_getElem? (i := n)
          rw [List.getElem?_set_ne same, List.getElem?_eq_getElem bound, here]

/-- The step that gives up the promoted pointer changes no other owner. -/
theorem Owning.discard (owning : w.Owning) {o : ObjectId} (given : w.discarded = some o)
    (stepped : w.step .section = some w') : w'.owned o = w.heldElsewhere o := by
  have sound := (step_effect stepped).1
  simp only [World.step, sound, Option.isSome_none, Bool.false_eq_true, if_false,
    sectionStep] at stepped
  unfold discarded lockedObject at given
  split at stepped
  · cases stepped
  · rename_i client b todo locked critical
    cases stepped
    cases todo with
    | nil =>
        cases locked with
        | none => cases client <;> simp [critical] at given
        | some object => exact absurd critical (owning.promoting client b object)
    | cons p rest =>
        cases locked with
        | none => cases client <;> simp [critical] at given
        | some object =>
            cases client with
            | iterator i => simp [critical] at given
            | connected =>
                simp [grabStep, insertLocked, enter, owned_eq, heldElsewhere, lockedObject]
            | traversal t =>
                simp [grabStep, insertLocked, enter, owned_eq, heldElsewhere, lockedObject]
  · rename_i t b weakPimpl pimpl locked critical
    cases stepped
    have tested : ∀ u : World σ, u.owners = w.owners → u.invocations = w.invocations →
        u.critical = none → u.owned o = w.heldElsewhere o := by
      intro u owners invocations free
      simp [owned_eq, heldElsewhere, lockedObject, owners, invocations, free]
    unfold containsStep
    dsimp only
    split <;> split <;> exact tested _ rfl rfl rfl
  · rename_i it i count grabTracked after critical
    simp [critical] at given

/-- The iterator takes over what it has promoted. -/
theorem Owning.insert (owning : w.Owning) {o : ObjectId} (locked : w.lockedObject = some o)
    (kept : w.discarded ≠ some o) (stepped : w.step .section = some w') :
    w'.heldElsewhere o = true := by
  have sound := (step_effect stepped).1
  have placed := owning.isolated.positioned.criticalPlaced
  simp only [World.step, sound, Option.isSome_none, Bool.false_eq_true, if_false,
    sectionStep] at stepped
  unfold discarded at kept
  unfold lockedObject at locked kept
  split at stepped
  · cases stepped
  · rename_i client b todo object critical
    cases stepped
    cases object with
    | none => simp [critical] at locked
    | some object =>
        simp only [critical] at locked kept
        subst locked
        cases client with
        | connected => exact absurd rfl kept
        | traversal t => exact absurd rfl kept
        | iterator i =>
            simp only [SectionPlaced, critical] at placed
            obtain ⟨inv, found, _⟩ := placed
            cases todo with
            | nil => exact absurd critical (owning.promoting (.iterator i) b (some o))
            | cons p rest =>
                have bound := (List.getElem?_eq_some_iff.mp found).1
                apply heldElsewhere_iff.mpr
                right
                refine ⟨{ inv with trackedPtrs := inv.trackedPtrs ++ [some o] }, ?_, by simp⟩
                simp only [grabStep, insertLocked, found]
                exact List.mem_set bound _
  · rename_i t b weakPimpl pimpl object critical
    simp [critical] at locked kept
    exact absurd locked kept
  · rename_i it i count grabTracked after critical
    simp [critical] at locked

/-! ### The runs -/

/-- Whoever has the mutex locked in this step takes the last owner neither from a tracked
object nor from a slot object. -/
def KeepsOwners (w : World σ) (a : Action σ) : Prop :=
  ∀ w', w.step a = some w' → w.locksMutex a = true →
    (∀ o, w.owned o = true → w'.owned o = true) ∧
      ∀ b, w.slotOwned b = true → w'.slotOwned b = true

/-- A promoted pointer that is given up under the lock is not the last one. -/
def DiscardsSpare (w : World σ) (a : Action σ) : Prop :=
  a = .section → ∀ o, w.discarded = some o → w.heldElsewhere o = true

theorem Owning.keepsOwners_iff (owning : w.Owning) (alone : CombinerSetAlone w a)
    (stepped : w.step a = some w') : KeepsOwners w a ↔ DiscardsSpare w a := by
  constructor
  · intro keeps same o given
    subst same
    have owned : w.owned o = true := by
      apply owned_iff.mpr
      right
      right
      unfold discarded at given
      split at given
      · cases given
      · exact given
    rw [← owning.discard given stepped]
    exact (keeps w' stepped rfl).1 o owned
  · intro spare u stepped' locks
    cases stepped.symm.trans stepped'
    refine ⟨fun o owned => ?_, fun b => ?_⟩
    · have elsewhere : w'.heldElsewhere o = true → w'.owned o = true := by
        intro held
        simp [owned_eq, held]
      cases held : w.heldElsewhere o with
      | true => exact elsewhere (locked_elsewhere locks stepped held)
      | false =>
          have locked : w.lockedObject = some o := by
            simpa [owned_eq, held] using owned
          have same : a = .section := by
            apply locksMutex_section locks
            intro free
            simp [lockedObject, free] at locked
          subst same
          apply elsewhere
          apply owning.insert locked _ stepped
          intro given
          rw [spare rfl o given] at held
          cases held
    · exact owning.slot_kept (owning.step alone stepped) locks stepped

theorem owners_kept_under_lock {combiner : σ.Combiner}
    {defaultCompare groupCompare : σ.Group → σ.Group → Bool} {owners : ObjectId → Nat}
    {actions : List (Action σ)}
    (alone : Runs.Guarded World.step CombinerSetAlone
      (World.construct combiner defaultCompare groupCompare owners) actions)
    (ran : Runs.run World.step (World.construct combiner defaultCompare groupCompare owners)
      actions = some w) :
    Runs.Guarded World.step KeepsOwners
        (World.construct combiner defaultCompare groupCompare owners) actions ↔
      Runs.Guarded World.step DiscardsSpare
        (World.construct combiner defaultCompare groupCompare owners) actions :=
  Runs.guarded_congr_on (fun _ _ _ owning alone stepped => owning.step alone stepped)
    (fun _ _ _ owning alone stepped => owning.keepsOwners_iff alone stepped)
    (construct_owning combiner defaultCompare groupCompare owners) alone ran

end World

/-! ### Two runs -/

/-- A slot tracks an object, and `connection::connected` promotes its pointer to it. -/
def promoteWhileConnected : List (Action natSignal) :=
  [.connect { group := none, slot := .ofFunctor 10 [.boost 7], position := .atBack }, .section,
    .connected 0, .section]

/-- The owner of the object drops it when `connected` has returned. -/
theorem dropLater_owners_kept :
    Runs.Guarded World.step World.KeepsOwners ownedStart
      (promoteWhileConnected ++ [.section, .section, .drop 7]) := by
  have ends : (Runs.run World.step ownedStart
      (promoteWhileConnected ++ [.section, .section, .drop 7])).isSome := by decide +kernel
  obtain ⟨w, ran⟩ := Option.isSome_iff_exists.mp ends
  have alone : Runs.Guarded World.step World.CombinerSetAlone ownedStart
      (promoteWhileConnected ++ [.section, .section, .drop 7]) :=
    World.CombinerSetAlone.of_forall (by simp [promoteWhileConnected])
  have spare : Runs.checked World.step (fun w _ => w.discarded.all w.heldElsewhere) ownedStart
      (promoteWhileConnected ++ [.section, .section, .drop 7]) = true := by decide +kernel
  apply (World.owners_kept_under_lock alone ran).mpr
  apply Runs.Guarded.of_checked _ spare
  intro s a holds _ o given
  rw [given] at holds
  exact holds

/-- The owner drops it in between. -/
theorem dropMeanwhile_last_release :
    Runs.Guarded World.step World.CombinerSetAlone ownedStart
        (promoteWhileConnected ++ [.drop 7] ++ [.section]) ∧
      ¬ Runs.Guarded World.step World.KeepsOwners ownedStart
        (promoteWhileConnected ++ [.drop 7] ++ [.section]) := by
  constructor
  · exact World.CombinerSetAlone.of_forall (by simp [promoteWhileConnected])
  · intro guarded
    have ends : (Runs.run World.step ownedStart (promoteWhileConnected ++ [.drop 7])).map
        (fun w => (w.owned 7, (w.step .section).map fun w' => w'.owned 7)) =
          some (true, some false) := by decide +kernel
    obtain ⟨w, ran, result⟩ := Option.map_eq_some_iff.mp ends
    obtain ⟨owned, after⟩ := Prod.mk.inj result
    obtain ⟨w', stepped, released⟩ := Option.map_eq_some_iff.mp after
    have keeps := ((Runs.guarded_append ran).mp guarded).2.1
    have still := (keeps w' stepped rfl).1 7 owned
    rw [released] at still
    cases still

end Signals2
