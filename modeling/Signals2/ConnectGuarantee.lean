/-
The strong guarantee of connect: when an exception leaves the signal as the call has
found it.  A call that throws before the new list node is in, with the saved position
of the cleanup neither erased nor left behind in another list, ends in a state that a
call without exception could have left; no other call does.
-/

import Signals2.ConnectRounds

namespace Signals2

open LinkedLists OrderedInsertion

variable {σ : SignalTemplate}

namespace World

variable {w w' : World σ} {a : Action σ} {compare : σ.Group → σ.Group → Bool}

/-! ### The end of a call -/

/-- The call saves a position, lets go of the mutex and returns. -/
structure LetsGo (impl : SignalImpl) (it : Iterator) (w w' : World σ) : Prop where
  bodies : w'.bodies = w.bodies
  nextBody : w'.nextBody = w.nextBody
  fault : w'.fault = w.fault
  heap : w'.heap = w.heap.setGarbageCollectorIt impl it
  invocations : w'.invocations = w.invocations
  traversals : w'.traversals = w.traversals
  owners : w'.owners = w.owners
  critical : w'.critical = none

theorem setGarbageCollectorIt_self {impl : SignalImpl} (present : w.heap.impl = some impl) :
    w.heap.setGarbageCollectorIt impl impl.garbageCollectorIt = w.heap := by
  simp only [Heap.setGarbageCollectorIt, ← present]

theorem LetsGo.upheld {impl : SignalImpl} {it : Iterator} (letsGo : LetsGo impl it w w')
    (upheld : w.Upheld compare) (present : w.heap.impl = some impl)
    (valid : (w.heap.connectionBodies impl).list.Valid it) : w'.Upheld compare := by
  have lists : w'.heap.lists = w.heap.lists := by rw [letsGo.heap]; rfl
  have keys : w'.keyOf = w.keyOf := by
    unfold keyOf
    rw [letsGo.bodies]
  have impl' : ∀ other, w'.heap.impl = some other →
      other = { impl with garbageCollectorIt := it } := by
    intro other found
    rw [letsGo.heap] at found
    exact (Option.some.inj found).symm
  have list : w'.heap.connectionBodies { impl with garbageCollectorIt := it } =
      w.heap.connectionBodies impl := by
    rw [letsGo.heap]
    rfl
  have readers : ∀ kind, w'.readers kind = w.readers kind := by
    intro kind
    cases kind with
    | invocation => simp only [World.readers, letsGo.invocations]
    | traversal => simp only [World.readers, letsGo.traversals]
  exact {
    current :=
      { consistent := fun other found => by
          rw [impl' other found, list, keys]
          exact upheld.current.consistent impl present
        saved := fun _ other found => by
          rw [impl' other found, list]
          exact valid
        running := fun it' i count grabTracked after critical => by
          rw [letsGo.critical] at critical
          cases critical }
    listed := fun b listed => by
      obtain ⟨l, member⟩ := listed
      rw [lists] at member
      rw [letsGo.nextBody]
      exact upheld.listed b ⟨l, member⟩
    distinct := fun other found => by
      rw [impl' other found, list]
      exact upheld.distinct impl present
    counted := upheld.counted.congr letsGo.bodies letsGo.nextBody letsGo.fault (by
      unfold activeSlots
      rw [letsGo.invocations])
    sharing :=
      { heap := by
          rw [letsGo.heap]
          exact { upheld.sharing.heap with
            impl := fun other found => by
              cases found
              exact upheld.sharing.heap.impl impl present }
        readers := fun kind s member => by
          rw [readers kind] at member
          rw [letsGo.heap]
          exact upheld.sharing.readers kind s member
        exclusive := fun running => by
          rw [sweeping_of_free letsGo.critical] at running
          cases running } }

theorem LetsGo.owned {impl : SignalImpl} {it : Iterator} (letsGo : LetsGo impl it w w')
    (unlocked : w.lockedObject = none) : w'.owned = w.owned := by
  funext o
  have nothing : w'.lockedObject = none := by simp only [lockedObject, letsGo.critical]
  simp only [World.owned, letsGo.owners, letsGo.invocations, unlocked, nothing]

theorem LetsGo.currentBodies {impl : SignalImpl} {it : Iterator} (letsGo : LetsGo impl it w w')
    (present : w.heap.impl = some impl) : w'.currentBodies = w.currentBodies := by
  simp only [World.currentBodies, letsGo.heap, present]
  rfl

theorem LetsGo.liveConnections {impl : SignalImpl} {it : Iterator}
    (letsGo : LetsGo impl it w w') (present : w.heap.impl = some impl)
    (unlocked : w.lockedObject = none) : w'.liveConnections = w.liveConnections :=
  liveConnections_of_same (letsGo.currentBodies present) letsGo.bodies (letsGo.owned unlocked)

/-! ### What an exception leaves behind -/

theorem roundThrows_letsGo {impl : SignalImpl} {list : GroupedList σ.Group BodyId} {b : BodyId}
    {site : ThrowSite} (present : w.heap.impl = some impl)
    (thrown : w.roundThrows list b site = some w') :
    (site = .addTrash ∨ site = .eraseCompare) ∧
      LetsGo impl impl.garbageCollectorIt (w.checkExpired true b) w' := by
  have heap : (w.checkExpired true b).heap =
      (w.checkExpired true b).heap.setGarbageCollectorIt impl impl.garbageCollectorIt := by
    rw [checkExpired_heap, setGarbageCollectorIt_self present]
  cases site with
  | addTrash =>
      simp only [roundThrows] at thrown
      split at thrown
      · cases thrown
        exact ⟨.inl rfl, rfl, rfl, rfl, heap, rfl, rfl, rfl, rfl⟩
      · cases thrown
  | eraseCompare =>
      simp only [roundThrows] at thrown
      split at thrown
      · cases thrown
        exact ⟨.inr rfl, rfl, rfl, rfl, heap, rfl, rfl, rfl, rfl⟩
      · cases thrown
  | _ => cases thrown

/-- After the cleanup the new list node is in or not, and that decides. -/
theorem insertThrows_cases {impl : SignalImpl} {arguments : ConnectArguments σ}
    {site : ThrowSite} (thrown : w.insertThrows impl arguments site = some w') :
    (∀ (u : World σ) (rounds : Nat), u.harmless rounds site = true) ∧ w' = w.unlock ∨
      (∀ (u : World σ) (rounds : Nat), u.harmless rounds site = false) ∧
        ∃ map, w' = (w.listInserted impl arguments map).unlock := by
  cases site with
  | newConnectionBody =>
      cases thrown
      exact .inl ⟨fun _ _ => rfl, rfl⟩
  | groupKey =>
      obtain ⟨_, same⟩ := Option.ite_none_right_eq_some.mp thrown
      cases same
      exact .inl ⟨fun _ _ => rfl, rfl⟩
  | mapBound =>
      obtain ⟨_, same⟩ := Option.ite_none_right_eq_some.mp thrown
      cases same
      exact .inl ⟨fun _ _ => rfl, rfl⟩
  | listInsert =>
      cases thrown
      exact .inl ⟨fun _ _ => rfl, rfl⟩
  | mapItEquivalent =>
      obtain ⟨_, same⟩ := Option.ite_none_right_eq_some.mp thrown
      cases same
      exact .inr ⟨fun _ _ => rfl, _, rfl⟩
  | insertLowerBound =>
      obtain ⟨_, same⟩ := Option.ite_none_right_eq_some.mp thrown
      cases same
      exact .inr ⟨fun _ _ => rfl, _, rfl⟩
  | lowerBoundEquivalent =>
      obtain ⟨_, same⟩ := Option.ite_none_right_eq_some.mp thrown
      cases same
      exact .inr ⟨fun _ _ => rfl, _, rfl⟩
  | mapInsert =>
      obtain ⟨_, same⟩ := Option.ite_none_left_eq_some.mp thrown
      cases same
      exact .inr ⟨fun _ _ => rfl, _, rfl⟩
  | _ => cases thrown

theorem listInserted_lists {impl : SignalImpl} {arguments : ConnectArguments σ}
    {map : List (GroupKey σ.Group × Iterator)} (present : w.heap.impl = some impl) :
    w.nextBody ∈ (w.listInserted impl arguments map).unlock.currentBodies := by
  have present' : (w.listInserted impl arguments map).unlock.heap.impl = some impl := present
  rw [currentBodies_of_present present']
  simp only [unlock, listInserted, Heap.connectionBodies, Heap.setConnectionBodies,
    Function.update_self]
  have inserted := insertBefore_perm
    ((w.heap.connectionBodies impl).list.fresh, w.nextBody)
    (w.heap.connectionBodies impl).list.nodes
    ((w.heap.connectionBodies impl).getListIterator
      ((w.heap.connectionBodies impl).pushMapIt arguments.position (groupKeyOf arguments))).node
  exact List.mem_map_of_mem (inserted.mem_iff.mpr List.mem_cons_self)

theorem Upheld.guarantee (upheld : w'.Upheld compare) (order : StrictWeak compare)
    {impl : SignalImpl} (present : w'.heap.impl = some impl) (free : w'.critical = none)
    (sequence : w'.liveConnections = w.liveConnections)
    (bodies : ∀ b ∈ w'.currentBodies, b ∈ w.currentBodies) :
    StrongGuarantee compare w w' where
  sequence := sequence
  uncalled := bodies
  consistent := upheld.current.consistent
  position := upheld.current.saved (sweeping_of_free free)
  swept := by
    refine Maintained.swept (upheld.maintained ?_) order
    rw [present]
    exact Option.some_ne_none impl

/-- What a call leaves when it lets go of the mutex at a position that counts. -/
theorem LetsGo.guarantee {impl : SignalImpl} {it : Iterator} {middle : World σ}
    (letsGo : LetsGo impl it middle w') (upheld : middle.Upheld compare)
    (order : StrictWeak compare) (present : middle.heap.impl = some impl)
    (unlocked : middle.lockedObject = none)
    (valid : (middle.heap.connectionBodies impl).list.Valid it)
    (sequence : middle.liveConnections = w.liveConnections)
    (bodies : ∀ b ∈ middle.currentBodies, b ∈ w.currentBodies) :
    w'.Upheld compare ∧ StrongGuarantee compare w w' := by
  have after := letsGo.upheld upheld present valid
  have present' : w'.heap.impl = some { impl with garbageCollectorIt := it } := by
    rw [letsGo.heap]
    rfl
  refine ⟨after, after.guarantee order present' letsGo.critical ?_ ?_⟩
  · exact (letsGo.liveConnections present unlocked).trans sequence
  · rw [letsGo.currentBodies present]
    exact bodies

/-- Before the cleanup has begun, nothing has happened. -/
theorem Upheld.unlock (upheld : w.Upheld compare) (order : StrictWeak compare)
    {arguments : ConnectArguments σ} (stepped : w.step (.connect arguments) = some w') :
    w.unlock.Upheld compare ∧ StrongGuarantee compare w w.unlock := by
  obtain ⟨free, impl, present, _⟩ := connect_starts stepped
  have letsGo : LetsGo impl impl.garbageCollectorIt w w.unlock :=
    ⟨rfl, rfl, rfl, (setGarbageCollectorIt_self present).symm, rfl, rfl, rfl, rfl⟩
  have unlocked : w.lockedObject = none := by simp only [lockedObject, free]
  have valid := upheld.current.saved (sweeping_of_free free) impl present
  exact letsGo.guarantee upheld order present unlocked valid rfl fun _ => id

theorem sectionThrows_sweeping {site : ThrowSite} (thrown : w.sectionThrows site = some w') :
    w.sweeping = true := by
  unfold sectionThrows at thrown
  split at thrown
  · rename_i critical present
    simp only [sweeping, critical]
  · cases thrown

theorem Upheld.sectionThrows {arguments : ConnectArguments σ} {rounds : Nat} {site : ThrowSite}
    {middle : World σ} (upheld : w.Upheld compare) (order : StrictWeak compare)
    (ran : Runs.run World.step w (.connect arguments :: List.replicate rounds .section) =
      some middle) (sound : middle.fault = none) (thrown : middle.sectionThrows site = some w') :
    (StrongGuarantee compare w w' ↔ w.harmless rounds site = true) ∧
      (w.harmless rounds site = true → w'.Upheld compare) := by
  obtain ⟨free, impl, impl', it, count, present, mid⟩ :=
    midCall ran sound (sectionThrows_sweeping thrown)
  have during := upheld.run order ran
  simp only [World.sectionThrows, mid.critical, mid.present] at thrown
  split at thrown
  · rename_i more
    obtain ⟨b, here, threw⟩ := Option.bind_eq_some_iff.mp thrown
    obtain ⟨round, letsGo⟩ := roundThrows_letsGo mid.present threw
    have heap := checkExpired_heap middle true b
    have checked : (middle.checkExpired true b).heap.impl = some impl' := by
      rw [heap]
      exact mid.present
    have holds : w.harmless rounds site = true →
        w'.Upheld compare ∧ StrongGuarantee compare w w' := by
      intro harmless
      refine letsGo.guarantee (during.checkExpired true b) order checked ?_ ?_ ?_ ?_
      · simp only [lockedObject, checkExpired_critical, mid.critical]
      · rw [heap]
        exact (mid.valid_iff upheld during present ran sound more.2 round).mpr harmless
      · exact (checkExpired_liveConnections middle true b).trans mid.sequence
      · intro c member
        apply mid.bodies
        simpa only [currentBodies, heap] using member
    refine ⟨⟨fun guarantee => ?_, fun harmless => (holds harmless).2⟩,
      fun harmless => (holds harmless).1⟩
    have same : w'.heap = middle.heap := by
      rw [letsGo.heap, heap, setGarbageCollectorIt_self mid.present]
    have valid := guarantee.position impl' (by rw [same]; exact mid.present)
    rw [same] at valid
    exact (mid.valid_iff upheld during present ran sound more.2 round).mp valid
  · rcases insertThrows_cases thrown with ⟨harmless, rfl⟩ | ⟨harmful, map, rfl⟩
    · have letsGo : LetsGo impl' it middle
          (middle.setHeap (middle.heap.setGarbageCollectorIt impl' it)).unlock :=
        ⟨rfl, rfl, rfl, rfl, rfl, rfl, rfl, rfl⟩
      have unlocked : middle.lockedObject = none := by simp only [lockedObject, mid.critical]
      have valid := during.current.running _ _ _ _ _ mid.critical impl' mid.present
      obtain ⟨after, guarantee⟩ :=
        letsGo.guarantee during order mid.present unlocked valid mid.sequence mid.bodies
      exact ⟨⟨fun _ => harmless w rounds, fun _ => guarantee⟩, fun _ => after⟩
    · rw [harmful w rounds]
      refine ⟨⟨fun guarantee => ?_, fun impossible => by cases impossible⟩,
        fun impossible => by cases impossible⟩
      have listed := guarantee.uncalled _ (listInserted_lists rfl)
      rw [currentBodies_of_present present] at listed
      have below := upheld.listed _ ⟨_, listed⟩
      have new : middle.nextBody = w.nextBody := mid.nextBody
      exact absurd (Nat.lt_of_lt_of_eq below new.symm) (Nat.lt_irrefl _)

/-- A connect that throws keeps the strong guarantee exactly if the throw is harmless,
and the signal is as fit for use as before then. -/
theorem Upheld.connectThrows {arguments : ConnectArguments σ} {rounds : Nat} {site : ThrowSite}
    (upheld : w.Upheld compare) (order : StrictWeak compare)
    (thrown : w.connectThrows arguments rounds site = some w') :
    (StrongGuarantee compare w w' ↔ w.harmless rounds site = true) ∧
      (w.harmless rounds site = true → w'.Upheld compare) := by
  unfold World.connectThrows at thrown
  split at thrown
  · split at thrown
    · cases thrown
    · obtain ⟨next, stepped, rfl⟩ := Option.map_eq_some_iff.mp thrown
      obtain ⟨after, guarantee⟩ := upheld.unlock order stepped
      exact ⟨⟨fun _ => rfl, fun _ => guarantee⟩, fun _ => after⟩
  · obtain ⟨next, stepped, left⟩ := Option.bind_eq_some_iff.mp thrown
    obtain ⟨_, same⟩ := Option.ite_none_left_eq_some.mp left
    cases same
    obtain ⟨after, guarantee⟩ := upheld.unlock order stepped
    exact ⟨⟨fun _ => rfl, fun _ => guarantee⟩, fun _ => after⟩
  · obtain ⟨middle, ran, threw⟩ := Option.bind_eq_some_iff.mp thrown
    obtain ⟨unfaulted, threw'⟩ := Option.ite_none_left_eq_some.mp threw
    have sound : middle.fault = none := by simpa using unfaulted
    exact upheld.sectionThrows order ran sound threw'

/-! ### Runs -/

theorem Upheld.fallibleStep {action : FallibleAction σ} (upheld : w.Upheld compare)
    (order : StrictWeak compare) (harmless : w.ThrowsHarmlessly action = true)
    (stepped : w.fallibleStep action = some w') : w'.Upheld compare := by
  cases action with
  | does action => exact upheld.step order (step_effect stepped).2
  | connectThrows arguments rounds site => exact (upheld.connectThrows order stepped).2 harmless

/-- In every run in which all throws have been harmless, the saved position is as it
should be, and the next connect that throws keeps the strong guarantee exactly if its
throw is harmless, too. -/
theorem connect_guarantee_runs (order : StrictWeak compare) {combiner : σ.Combiner}
    {owners : ObjectId → Nat} {actions : List (FallibleAction σ)}
    (guarded : Runs.Guarded World.fallibleStep (fun s action => s.ThrowsHarmlessly action = true)
      (World.construct combiner compare compare owners) actions)
    (ran : Runs.run World.fallibleStep (World.construct combiner compare compare owners) actions =
      some w) :
    (w.heap.impl ≠ none → w.Swept compare) ∧
      ∀ arguments rounds site w', w.connectThrows arguments rounds site = some w' →
        (StrongGuarantee compare w w' ↔ w.harmless rounds site = true) := by
  have upheld : w.Upheld compare :=
    Runs.run_invariant
      (fun _ _ _ holds harmless stepped => holds.fallibleStep order harmless stepped)
      (construct_upheld combiner compare owners) guarded ran
  constructor
  · intro present
    exact (upheld.maintained present).swept order
  · intro arguments rounds site w' thrown
    exact (upheld.connectThrows order thrown).1

end World

/-! ### Two calls that throw -/

/-- The map node of the first slot of a signal cannot be allocated. -/
def firstArguments : ConnectArguments natSignal :=
  { group := none, slot := .ofFunctor 10 [], position := .atBack }

theorem throws_and_connects :
    ∃ w, natStart.connectThrows firstArguments 0 .mapInsert = some w ∧
      w.liveConnections.map LiveConnection.body = [0] ∧
      ¬ World.StrongGuarantee (fun a b : Nat => decide (a < b)) natStart w := by
  have ends : (natStart.connectThrows firstArguments 0 .mapInsert).map
      (fun w => w.liveConnections.map LiveConnection.body) = some [0] := by decide +kernel
  obtain ⟨w, thrown, live⟩ := Option.map_eq_some_iff.mp ends
  refine ⟨w, thrown, live, fun guarantee => ?_⟩
  rw [guarantee.sequence] at live
  cases live

/-- Two connections, the one behind disconnected and not erased because the comparison
throws. -/
def throwAtErase : List (FallibleAction natSignal) :=
  [.does (connectGroup 2 10 .atBack), .does .section, .does (connectGroup 1 11 .atBack),
    .does .section, .does .section, .does (.disconnect 0),
    .connectThrows { group := some 3, slot := .ofFunctor 12 [], position := .atFront } 1
      .eraseCompare]

theorem throwAtErase_guaranteed :
    ∃ w w', Runs.run World.fallibleStep natStart throwAtErase = some w ∧
      w.connectThrows { group := some 3, slot := .ofFunctor 12 [], position := .atFront } 2
        .listInsert = some w' ∧
      w'.liveConnections.map LiveConnection.body = [1] ∧
      World.StrongGuarantee (fun a b : Nat => decide (a < b)) w w' := by
  have ends : ((Runs.run World.fallibleStep natStart throwAtErase).bind fun w =>
      (w.connectThrows { group := some 3, slot := .ofFunctor 12 [], position := .atFront } 2
        .listInsert).map fun w' => w'.liveConnections.map LiveConnection.body) = some [1] := by
    decide +kernel
  obtain ⟨w, ran, rest⟩ := Option.bind_eq_some_iff.mp ends
  obtain ⟨w', thrown, live⟩ := Option.map_eq_some_iff.mp rest
  have checked : Runs.checked World.fallibleStep World.ThrowsHarmlessly natStart throwAtErase =
      true := by decide +kernel
  have guarded : Runs.Guarded World.fallibleStep
      (fun s action => s.ThrowsHarmlessly action = true) natStart throwAtErase :=
    .of_checked (fun _ _ => id) checked
  exact ⟨w, w', ran, thrown, live,
    ((World.connect_guarantee_runs natLess_strictWeak guarded ran).2 _ _ _ _ thrown).mpr rfl⟩

end Signals2
