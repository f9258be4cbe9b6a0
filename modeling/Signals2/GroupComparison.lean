/-
The comparison that rules.  The map of group heads is default-constructed, so it
orders the groups by a comparison of its own; the one given to the constructor only
decides which groups are equivalent.  What the signal promises about its groups
holds exactly if the two agree.
-/

import Signals2.CallSequence
import Signals2.Refinement

namespace Signals2

open LinkedLists OrderedInsertion

variable {σ : SignalTemplate}

/-! ### Insertion behind a single group -/

/-- The only comparison asked for is the one of the map. -/
theorem GroupedList.pushBack_single {Group Value : Type} (g : GroupedList Group Value)
    {node : Nat × Value} {head : Group} (nodes : g.list.nodes = [node])
    (groupMap : g.groupMap = [(.groupedSlots head, g.list.begin)]) (group : Group) (value : Value) :
    (g.pushBack (.groupedSlots group) value).list.values =
      if g.mapCompare group head then [value, node.2] else [node.2, value] := by
  have below : groupKeyLess g.mapCompare (.groupedSlots group) (.groupedSlots head) =
      g.mapCompare group head := rfl
  have grouped : (GroupKey.groupedSlots group).first ≠ .backUngroupedSlots := by
    simp [GroupKey.first]
  have inserted : (g.pushBack (.groupedSlots group) value).list =
      g.list.insert (g.upperBound (.groupedSlots group)) value := by
    simp only [pushBack, if_neg grouped]
    rfl
  rw [inserted]
  cases order : g.mapCompare group head with
  | true =>
      have place : g.upperBound (.groupedSlots group) = g.list.begin := by
        simp [upperBound, SortedMaps.upperBound, getListIterator, groupMap, below, order]
      simp [place, LinkedList.values, LinkedList.insert, LinkedList.begin, nodes, insertBefore,
        firstNode]
  | false =>
      have place : g.upperBound (.groupedSlots group) = g.list.past := by
        simp [upperBound, SortedMaps.upperBound, getListIterator, groupMap, below, order]
      simp [place, LinkedList.values, LinkedList.insert, LinkedList.past, nodes, insertBefore]

namespace World

variable {w w' : World σ} {a : Action σ}

/-! ### Two connects -/

def groupArguments (group : σ.Group) (function : σ.Function) : ConnectArguments σ :=
  { group := some group, slot := .ofFunctor function [], position := .atBack }

/-- A signal at rest with a single connection. -/
structure Single (mapCompare : σ.Group → σ.Group → Bool) (head : σ.Group) (function : σ.Function)
    (w : World σ) (impl : SignalImpl) : Prop where
  sound : w.fault = none
  free : w.critical = none
  present : w.heap.impl = some impl
  unique : w.unique impl.sharedState = true
  rests : impl.garbageCollectorIt = (w.heap.connectionBodies impl).list.past
  nodes : (w.heap.connectionBodies impl).list.nodes = [(0, 0)]
  groupMap : (w.heap.connectionBodies impl).groupMap =
    [(.groupedSlots head, (w.heap.connectionBodies impl).list.begin)]
  mapCompare : (w.heap.connectionBodies impl).mapCompare = mapCompare
  body : w.bodies 0 = .construct (.ofFunctor function []) (.groupedSlots head)
  next : w.nextBody = 1

/-- The section that a second connect has come to. -/
def beforeInsertion (w : World σ) (impl : SignalImpl) (arguments : ConnectArguments σ) : World σ :=
  w.enter (.cleanupConnections (w.heap.connectionBodies impl).list.past 1 2 true
    (.connect arguments))

theorem first_connect (combiner : σ.Combiner) (defaultCompare groupCompare : σ.Group → σ.Group → Bool)
    (owners : ObjectId → Nat) (head : σ.Group) (function : σ.Function) :
    ∃ w impl, Runs.run World.step (World.construct combiner defaultCompare groupCompare owners)
        [.connect (groupArguments head function), .section] = some w ∧
      Single defaultCompare head function w impl := by
  let impl : SignalImpl := { sharedState := 0, garbageCollectorIt := { owner := 0, node := none } }
  refine ⟨(World.construct combiner defaultCompare groupCompare owners).finishCleanup impl
    impl.garbageCollectorIt (.connect (groupArguments head function)), impl, rfl, ?_⟩
  exact {
    sound := rfl
    free := rfl
    present := rfl
    unique := rfl
    rests := rfl
    nodes := rfl
    groupMap := rfl
    mapCompare := rfl
    body := rfl
    next := rfl }

variable {mapCompare : σ.Group → σ.Group → Bool} {head group : σ.Group} {function : σ.Function}
variable {impl : SignalImpl}

/-- The cleanup of the second connect passes the first connection. -/
theorem Single.second_connect (single : Single mapCompare head function w impl) :
    Runs.run World.step w [.connect (groupArguments group function), .section] =
      some (w.beforeInsertion impl (groupArguments group function)) := by
  have entered : w.step (.connect (groupArguments group function)) =
      some (w.enter (.cleanupConnections (w.heap.connectionBodies impl).list.begin 0 2 true
        (.connect (groupArguments group function)))) := by
    have saved : impl.garbageCollectorIt = (w.heap.connectionBodies impl).past := single.rests
    simp [World.step, single.sound, World.connect, lockImpl, single.free, single.present,
      nolockForceUniqueConnectionList, single.unique, nolockCleanupConnections, saved,
      GroupedList.begin]
  have begins : (w.heap.connectionBodies impl).list.begin =
      { owner := (w.heap.connectionBodies impl).list.name, node := some 0 } := by
    simp [LinkedList.begin, single.nodes, firstNode]
  have inside : (w.heap.connectionBodies impl).list.begin ≠
      (w.heap.connectionBodies impl).list.past := by
    rw [begins]
    intro same
    cases same
  have here : (w.heap.connectionBodies impl).list.value?
      (w.heap.connectionBodies impl).list.begin = some 0 := by
    rw [begins]
    simp [LinkedList.value?, single.nodes, valueAt]
  have next : (w.heap.connectionBodies impl).list.next
      (w.heap.connectionBodies impl).list.begin = (w.heap.connectionBodies impl).list.past := by
    rw [begins]
    simp [LinkedList.next, single.nodes, nodeAfter, firstNode, LinkedList.past]
  have untracked : (w.bodies 0).trackedObjects = [] := by rw [single.body]; rfl
  have passed : ∀ u : World σ, u.bodies = w.bodies → u.checkExpired true 0 = u := by
    intro u same
    simp [checkExpired, disconnectExpiredSlot, slotExpired, same, untracked]
  have connected : (w.bodies 0).connected = true := by rw [single.body]; rfl
  simp only [Runs.run, entered]
  simp [World.step, enter, single.sound, sectionStep, cleanupStep, single.present,
    GroupedList.past, inside, here, passed, connected, next, beforeInsertion]

theorem beforeInsertion_steps (single : Single mapCompare head function w impl)
    (arguments : ConnectArguments σ) :
    (w.beforeInsertion impl arguments).step .section =
      some ((w.beforeInsertion impl arguments).finishCleanup impl
        (w.heap.connectionBodies impl).list.past (.connect arguments)) := by
  simp [beforeInsertion, enter, World.step, single.sound, sectionStep, cleanupStep, single.present,
    GroupedList.past]

/-- The map's comparison places the second connection. -/
theorem Single.bodies (single : Single mapCompare head function w impl)
    (stepped : (w.beforeInsertion impl (groupArguments group function)).step .section = some w') :
    w'.currentBodies = if mapCompare group head then [1, 0] else [0, 1] := by
  rw [beforeInsertion_steps single] at stepped
  cases stepped
  have inserted := GroupedList.pushBack_single (w.heap.connectionBodies impl) single.nodes
    single.groupMap group w.nextBody
  rw [single.mapCompare, single.next] at inserted
  simpa only [currentBodies, finishCleanup, beforeInsertion, enter, insertConnection, unlock,
    setHeap, Heap.setGarbageCollectorIt, Heap.setConnectionBodies, Heap.connectionBodies,
    Function.update_self, single.next, pushConnection, groupArguments, groupKeyOf] using inserted

/-- What the second connect means for the sequence of live connections. -/
theorem Single.events (single : Single mapCompare head function w impl)
    (stepped : (w.beforeInsertion impl (groupArguments group function)).step .section = some w') :
    (w.beforeInsertion impl (groupArguments group function)).liveConnections =
        [⟨0, .groupedSlots head, []⟩] ∧
      (w.beforeInsertion impl (groupArguments group function)).liveEvents .section =
        [.connect ⟨1, .groupedSlots group, []⟩ .atBack,
          .expire ((w.beforeInsertion impl (groupArguments group function)).released w')] := by
  constructor
  · have bodies : (w.beforeInsertion impl (groupArguments group function)).currentBodies = [0] := by
      simp [currentBodies, beforeInsertion, enter, single.present, LinkedList.values, single.nodes]
    have body : (w.beforeInsertion impl (groupArguments group function)).bodies 0 =
        .construct (.ofFunctor function []) (.groupedSlots head) := single.body
    have alive : (w.beforeInsertion impl (groupArguments group function)).live 0 = true := by
      rw [live, slotExpired, body]
      rfl
    have same : (w.beforeInsertion impl (groupArguments group function)).liveConnection 0 =
        ⟨0, .groupedSlots head, []⟩ := by
      rw [liveConnection, keyOf, body]
      rfl
    simp only [liveConnections, bodies, List.filter_cons, alive, if_true, List.filter_nil,
      List.map_cons, same, List.map_nil]
  · simp only [liveEvents, stepped]
    simp [connectEvents, disconnects, beforeInsertion, enter, single.present, groupArguments,
      Slot.ofFunctor, single.next, groupKeyOf]

/-- Two connects up to the insertion of the second connection. -/
def connectTwice (head group : σ.Group) (function : σ.Function) : List (Action σ) :=
  [.connect (groupArguments head function), .section,
    .connect (groupArguments group function), .section]

theorem connectTwice_runs (combiner : σ.Combiner)
    (defaultCompare groupCompare : σ.Group → σ.Group → Bool) (owners : ObjectId → Nat)
    (head group : σ.Group) (function : σ.Function) :
    ∃ w impl before after, Single defaultCompare head function w impl ∧
      Runs.run World.step (World.construct combiner defaultCompare groupCompare owners)
        (connectTwice head group function) = some before ∧
      before = w.beforeInsertion impl (groupArguments group function) ∧
      before.step .section = some after := by
  obtain ⟨w, impl, ran, single⟩ :=
    first_connect combiner defaultCompare groupCompare owners head function
  refine ⟨w, impl, _, _, single, ?_, rfl, beforeInsertion_steps single _⟩
  have split : connectTwice head group function =
      [.connect (groupArguments head function), .section] ++
        [.connect (groupArguments group function), .section] := rfl
  rw [split, Runs.run_append, ran]
  exact single.second_connect

theorem connectTwice_guarded (head group : σ.Group) (function : σ.Function) (start : World σ) :
    Runs.Guarded World.step Undisturbed start
      (connectTwice head group function ++ [.section]) := by
  apply Undisturbed.of_forall
  · simp [connectTwice]
  · simp [connectTwice]

/-- Where the sequence of live connections must have the second connection. -/
theorem Single.placed {compare : σ.Group → σ.Group → Bool}
    (single : Single mapCompare head function w impl)
    (stepped : (w.beforeInsertion impl (groupArguments group function)).step .section = some w')
    (sequence : w'.liveConnections =
      ((w.beforeInsertion impl (groupArguments group function)).liveEvents .section).foldl
        (LiveConnection.apply compare)
        (w.beforeInsertion impl (groupArguments group function)).liveConnections) :
    w'.currentBodies = if compare group head then [1, 0] else [0, 1] := by
  obtain ⟨live, events⟩ := single.events stepped
  generalize (w.beforeInsertion impl (groupArguments group function)).released w' = released
    at events
  have placed : LiveConnection.prior compare (.groupedSlots group) .atBack (.groupedSlots head) =
      !compare group head := rfl
  have spared : ∀ (b : BodyId) (key : GroupKey σ.Group),
      LiveConnection.unreleased released ⟨b, key, []⟩ = true := fun _ _ => rfl
  have now : w'.liveConnections = if compare group head then
      [⟨1, .groupedSlots group, []⟩, ⟨0, .groupedSlots head, []⟩]
      else [⟨0, .groupedSlots head, []⟩, ⟨1, .groupedSlots group, []⟩] := by
    rw [sequence, live, events]
    cases above : compare group head <;>
      simp [LiveConnection.apply, insertWhere, placed, above, spared]
  have kept : (w'.currentBodies.filter w'.live).Sublist w'.currentBodies := List.filter_sublist
  have bodies : w'.currentBodies.filter w'.live = if compare group head then [1, 0] else [0, 1] := by
    have mapped := congrArg (List.map LiveConnection.body) now
    rw [liveConnections, List.map_map] at mapped
    have same : LiveConnection.body ∘ w'.liveConnection = id := rfl
    rw [same, List.map_id] at mapped
    rw [mapped]
    cases compare group head <;> rfl
  have lengths : (w'.currentBodies.filter w'.live).length = w'.currentBodies.length := by
    rw [bodies, single.bodies stepped]
    cases compare group head <;> cases mapCompare group head <;> rfl
  rw [← bodies]
  exact (kept.eq_of_length lengths).symm

/-- One step more adds its own events. -/
theorem Refines.sequence_step {compare : σ.Group → σ.Group → Bool} {start : World σ}
    {actions : List (Action σ)} (before : Refines compare start w actions)
    (after : Refines compare start w' (actions ++ [a]))
    (ran : Runs.run World.step start actions = some w) (stepped : w.step a = some w') :
    w'.liveConnections =
      (w.liveEvents a).foldl (LiveConnection.apply compare) w.liveConnections := by
  have split : Runs.outputs World.step liveEvents start (actions ++ [a]) =
      Runs.outputs World.step liveEvents start actions ++
        Runs.outputs World.step liveEvents w [a] := Runs.outputs_append ran
  have last : Runs.outputs World.step liveEvents w [a] = w.liveEvents a := by
    simp [Runs.outputs, stepped]
  rw [after.sequence, split, last, List.foldl_append, ← before.sequence]

/-! ### All connections ever made -/

variable {compare : σ.Group → σ.Group → Bool} {i : InvocationId}

/-- A new connection goes into the list, whether its slot has expired or not. -/
def placements (w : World σ) : Action σ → List (LiveEvent σ)
  | .section =>
      match w.critical, w.heap.impl with
      | some (.cleanupConnections it i count _ (.connect arguments)), some impl =>
          if it ≠ (w.heap.connectionBodies impl).list.past ∧ (count = 0 ∨ i < count) then []
          else
            [.connect
              { body := w.nextBody
                groupKey := groupKeyOf arguments
                trackedObjects := arguments.slot.trackedObjects }
              arguments.position]
      | _, _ => []
  | _ => []

theorem placements_connects {arguments : ConnectArguments σ} (connects : w.Connects arguments) :
    w.placements .section =
      [.connect ⟨w.nextBody, groupKeyOf arguments, arguments.slot.trackedObjects⟩
        arguments.position] := by
  obtain ⟨it, k, count, grabTracked, impl, critical, present, done⟩ := connects
  simp only [placements, critical, present, if_neg done]

theorem placements_nil (unconnecting : a = .section → ∀ arguments, ¬ w.Connects arguments) :
    w.placements a = [] := by
  cases a with
  | «section» =>
      simp only [placements]
      split
      · rename_i critical present
        split
        · rfl
        · rename_i done
          exact absurd ⟨_, _, _, _, _, critical, present, done⟩ (unconnecting rfl _)
      · rfl
  | _ => rfl

/-- All connections, each at the place that the comparison gives it. -/
def placed (compare : σ.Group → σ.Group → Bool) (events : List (LiveEvent σ)) :
    List (LiveConnection σ) :=
  events.foldl (LiveConnection.apply compare) []

/-- The current list is a part of the sequence of all connections. -/
structure Placing (compare : σ.Group → σ.Group → Bool) (w : World σ)
    (all : List (LiveConnection σ)) : Prop where
  ordered : LiveConnection.Ordered compare all
  keyed : ∀ connection ∈ all,
    connection.body < w.nextBody ∧ w.keyOf connection.body = connection.groupKey
  current : w.currentBodies.Sublist (all.map LiveConnection.body)

theorem Effect.keyed_kept (effect : Effect w a w') {connection : LiveConnection σ}
    (keyed : connection.body < w.nextBody ∧ w.keyOf connection.body = connection.groupKey) :
    connection.body < w'.nextBody ∧ w'.keyOf connection.body = connection.groupKey :=
  ⟨Nat.lt_of_lt_of_le keyed.1 effect.nextBody_le, (effect.keyOf_kept keyed.1).trans keyed.2⟩

/-- Every step but the end of a connect keeps the list or takes from it. -/
theorem ListEffect.sublist (listEffect : ListEffect w a w') (present' : w'.heap.impl ≠ none)
    (unconnecting : a = .section → ∀ arguments, ¬ w.Connects arguments) :
    w'.currentBodies.Sublist w.currentBodies := by
  obtain ⟨impl', present'⟩ := Option.ne_none_iff_exists'.mp present'
  rw [currentBodies_of_present present']
  cases listEffect with
  | keep current cleanup =>
      obtain ⟨impl, present, list, _⟩ := current impl' present'
      rw [currentBodies_of_present present, list]
  | start impl it i count grabTracked after free present position heap critical =>
      rw [heap] at present' ⊢
      rw [currentBodies_of_present present']
  | copy impl grabTracked after present heap critical =>
      rw [heap] at present' ⊢
      cases present'
      rw [currentBodies_of_present present]
      simp only [Heap.connectionBodies, Heap.copyConnectionBodies, Function.update_self]
      rfl
  | erase impl it i i' count grabTracked after b list next before present here dead erased heap
      critical =>
      rw [heap] at present' ⊢
      cases present.symm.trans present'
      rw [currentBodies_of_present present]
      simp only [Heap.connectionBodies, Heap.setConnectionBodies, Function.update_self]
      rw [(GroupedList.erase_some erased).1]
      exact List.filter_sublist.map Prod.snd
  | skip impl it i i' count grabTracked after b before present here heap critical =>
      rw [heap] at present' ⊢
      rw [currentBodies_of_present present']
  | save impl it i count grabTracked after before present heap critical =>
      rw [heap] at present' ⊢
      cases present'
      rw [currentBodies_of_present present]
      rfl
  | connect impl it i count grabTracked arguments before present heap bodies connects critical =>
      exact absurd connects.2 (unconnecting connects.1 arguments)

theorem Placing.step {all : List (LiveConnection σ)} (placing : Placing compare w all)
    (orderly : w.Orderly compare) (order : StrictWeak compare) (undisturbed : Undisturbed w a)
    (stepped : w.step a = some w') :
    Placing compare w' ((w.placements a).foldl (LiveConnection.apply compare) all) := by
  have effect := (step_effect stepped).2
  have after := orderly.step order undisturbed stepped
  by_cases connecting : a = .section ∧ ∃ arguments, w.Connects arguments
  · obtain ⟨rfl, arguments, connects⟩ := connecting
    obtain ⟨impl, it, present, _, _, _, result⟩ := connects.stepped stepped
    rw [placements_connects connects, List.foldl_cons, List.foldl_nil]
    have body : w'.bodies w.nextBody = .construct arguments.slot (groupKeyOf arguments) := by
      rw [result]
      exact finishCleanup_bodies
    have keyed : ∀ connection ∈ all,
        connection.body < w'.nextBody ∧ w'.keyOf connection.body = connection.groupKey :=
      fun connection member => effect.keyed_kept (placing.keyed connection member)
    have kept : ∀ b ∈ w.currentBodies, w'.keyOf b = w.keyOf b := fun b member =>
      effect.keyOf_kept (orderly.below b member)
    refine ⟨placing.ordered.apply order _, fun connection member => ?_, ?_⟩
    · rcases mem_insertWhere member with rfl | old
      · refine ⟨?_, ?_⟩
        · rw [result]
          exact Nat.lt_succ_self w.nextBody
        · simp only [keyOf, body]
          rfl
      · exact keyed connection old
    · have values : w'.currentBodies = insertWhere (fun other => LiveConnection.prior compare
          (groupKeyOf arguments) arguments.position (w'.keyOf other)) w.nextBody w.currentBodies := by
        rw [result] at kept ⊢
        exact orderly.finishCleanup_values order present kept
      have sorted : Sorted (groupKeyLess compare) w'.keyOf (all.map LiveConnection.body) :=
        List.pairwise_map.mpr (placing.ordered.imp_of_mem fun first second ordered => by
          rw [(keyed _ first).2, (keyed _ second).2]
          exact ordered)
      have cut := LiveConnection.prior_cut order sorted (groupKeyOf arguments) arguments.position
      have same : ∀ connection ∈ all,
          LiveConnection.prior compare (groupKeyOf arguments) arguments.position
              connection.groupKey =
            LiveConnection.prior compare (groupKeyOf arguments) arguments.position
              (w'.keyOf connection.body) := by
        intro connection member
        rw [(keyed connection member).2]
      have moved := map_insertWhere LiveConnection.body (fun b => LiveConnection.prior compare
        (groupKeyOf arguments) arguments.position (w'.keyOf b))
        (⟨w.nextBody, groupKeyOf arguments, arguments.slot.trackedObjects⟩ : LiveConnection σ) all
      rw [values, LiveConnection.apply, insertWhere_congr same, moved]
      exact cut.insertWhere_sublist placing.current w.nextBody
  · have quiet : a = .section → ∀ arguments, ¬ w.Connects arguments :=
      fun acting arguments connects => connecting ⟨acting, arguments, connects⟩
    rw [placements_nil quiet]
    exact {
      ordered := placing.ordered
      keyed := fun connection member => effect.keyed_kept (placing.keyed connection member)
      current := (effect.listEffect.sublist after.present quiet).trans placing.current }

/-! ### Calls in the order of the groups -/

/-- A run as the observer of one invocation sees it, with a snapshot that is part of
the sequence of all connections. -/
structure Overseen (compare : σ.Group → σ.Group → Bool) (i : InvocationId)
    (events : List CallEvent) (all : List (LiveConnection σ)) (w : World σ) : Prop where
  orderly : w.Orderly compare
  chronicle : Chronicle False i events w
  placing : Placing compare w all
  snapshot : ∀ snapshot later, events = .start snapshot :: later →
    snapshot.Sublist (all.map LiveConnection.body)

/-- What has been placed stays in its order. -/
theorem placements_sublist (order : StrictWeak compare) {all : List (LiveConnection σ)}
    (ordered : LiveConnection.Ordered compare all) :
    (all.map LiveConnection.body).Sublist
      (((w.placements a).foldl (LiveConnection.apply compare) all).map LiveConnection.body) := by
  by_cases connecting : a = .section ∧ ∃ arguments, w.Connects arguments
  · obtain ⟨rfl, arguments, connects⟩ := connecting
    rw [placements_connects connects, List.foldl_cons, List.foldl_nil]
    have cut := LiveConnection.prior_cut order ordered (groupKeyOf arguments) arguments.position
    exact (cut.sublist_insertWhere _).map LiveConnection.body
  · have quiet : a = .section → ∀ arguments, ¬ w.Connects arguments :=
      fun acting arguments connects => connecting ⟨acting, arguments, connects⟩
    rw [placements_nil quiet]
    exact List.Sublist.refl _

theorem Overseen.step {events : List CallEvent} {all : List (LiveConnection σ)}
    (overseen : Overseen compare i events all w) (order : StrictWeak compare)
    (undisturbed : Undisturbed w a) (stepped : w.step a = some w') :
    Overseen compare i (events ++ w.callEvents i a)
      ((w.placements a).foldl (LiveConnection.apply compare) all) w' := by
  have orderly := overseen.orderly
  have grows := placements_sublist (w := w) (a := a) order overseen.placing.ordered
  refine {
    orderly := orderly.step order undisturbed stepped
    chronicle := overseen.chronicle.step undisturbed.alone.unread
      (fun impossible => impossible.elim) stepped
    placing := overseen.placing.step orderly order undisturbed stepped
    snapshot := fun snapshot later split => ?_ }
  refine List.Sublist.trans ?_ grows
  cases events with
  | nil =>
      have observed : Observed i w a w' (seen i w w') :=
        (step_effect stepped).2.observed orderly.guarding.isolated.positioned.criticalPlaced
      have shown : seen i w w' = .start snapshot :: later := by
        simpa only [callEvents, stepped, List.nil_append] using split
      rw [shown] at observed
      cases observed with
      | start impl present absent found' lists =>
          rw [← currentBodies_of_present present]
          exact overseen.placing.current
  | cons first rest =>
      cases split
      exact overseen.snapshot snapshot rest rfl

/-- The slots were called in the order of `bodies`, one or more than once each, some not
at all. -/
def CalledAlong (bodies called : List BodyId) : Prop :=
  ∃ visits : List Visit, (visits.map Visit.body).Sublist bodies ∧
    called = visits.flatMap fun visit => List.replicate visit.calls visit.body

theorem Overseen.called {events : List CallEvent} {all : List (LiveConnection σ)}
    (overseen : Overseen compare i events all w) :
    CalledAlong (all.map LiveConnection.body) (calls events) := by
  cases found : w.invocations[i]? with
  | none =>
      rw [overseen.chronicle.absent found]
      exact ⟨[], List.nil_sublist _, rfl⟩
  | some inv =>
      obtain ⟨snapshot, visits, told⟩ := overseen.chronicle.told inv found
      refine ⟨visits, ?_, ?_⟩
      · exact told.standing.visited.1.sublist.trans (overseen.snapshot snapshot _ told.events)
      · rw [told.counted, calls_history]

/-- Calls along the sequence of all connections follow the order of their groups. -/
theorem CalledAlong.sorted {all : List (LiveConnection σ)} {called : List BodyId}
    (along : CalledAlong (all.map LiveConnection.body) called) (order : StrictWeak compare)
    (placing : Placing compare w all) : Sorted (groupKeyLess compare) w.keyOf called := by
  obtain ⟨visits, visited, rfl⟩ := along
  have whole : Sorted (groupKeyLess compare) w.keyOf (all.map LiveConnection.body) :=
    List.pairwise_map.mpr (placing.ordered.imp_of_mem fun first second ordered => by
      rw [(placing.keyed _ first).2, (placing.keyed _ second).2]
      exact ordered)
  have sorted : Sorted (groupKeyLess compare) w.keyOf (visits.map Visit.body) :=
    List.Pairwise.sublist visited whole
  refine List.pairwise_flatMap.mpr ⟨fun visit _ => ?_, ?_⟩
  · refine List.pairwise_replicate.mpr (.inr ?_)
    exact groupKeyLess_irrefl order _
  · refine (List.pairwise_map.mp sorted).imp fun ordered x first y second => ?_
    rw [List.eq_of_mem_replicate first, List.eq_of_mem_replicate second]
    exact ordered

/-! ### When the comparison rules -/

/-- The given comparison decides the place of each connection, the order of the calls
and what belongs to a group, and no assertion fails. -/
structure Ruled (compare : σ.Group → σ.Group → Bool) (start : World σ) (actions : List (Action σ))
    (w : World σ) : Prop where
  refines : Refines compare start w actions
  along : ∀ i, CalledAlong
    ((placed compare (Runs.outputs World.step placements start actions)).map LiveConnection.body)
    (calls (Runs.outputs World.step (callEvents i) start actions))
  sorted : ∀ i, Sorted (groupKeyLess compare) w.keyOf
    (calls (Runs.outputs World.step (callEvents i) start actions))

theorem ruled_of_agree {combiner : σ.Combiner} {owners : ObjectId → Nat}
    {actions : List (Action σ)} (order : StrictWeak compare)
    (guarded : Runs.Guarded World.step Undisturbed
      (World.construct combiner compare compare owners) actions)
    (ran : Runs.run World.step (World.construct combiner compare compare owners)
      actions = some w) :
    Ruled compare (World.construct combiner compare compare owners) actions w := by
  have start := construct_orderly combiner compare owners
  have keeps : ∀ (events : List CallEvent) (placements' : List (LiveEvent σ)) (s : World σ)
      (a : Action σ) (next : World σ), (∀ i, Overseen compare i events (placed compare placements') s →
        Undisturbed s a → s.step a = some next →
        Overseen compare i (events ++ s.callEvents i a)
          (placed compare (placements' ++ s.placements a)) next) := by
    intro events placements' s a next i overseen undisturbed stepped
    rw [placed, List.foldl_append]
    exact overseen.step order undisturbed stepped
  have overseen : ∀ i, Overseen compare i
      (Runs.outputs World.step (callEvents i) (World.construct combiner compare compare owners)
        actions)
      (placed compare (Runs.outputs World.step placements
        (World.construct combiner compare compare owners) actions)) w := by
    intro i
    have began : Overseen compare i [] (placed compare [])
        (World.construct combiner compare compare owners) := {
      orderly := start
      chronicle := construct_chronicle combiner compare compare owners
      placing := {
        ordered := List.Pairwise.nil
        keyed := fun connection member => by cases member
        current := List.Sublist.refl _ }
      snapshot := fun _ _ split => by cases split }
    exact Runs.run_history (fun events placements' s a next => keeps events placements' s a next i)
      began guarded ran
  exact {
    refines := start.refines order guarded ran
    along := fun i => (overseen i).called
    sorted := fun i => (overseen i).called.sorted order (overseen i).placing }

/-- The comparison given to the constructor rules in every undisturbed run exactly if
the default-constructed one orders every two groups as it does. -/
theorem group_compare_rules {combiner : σ.Combiner} {owners : ObjectId → Nat}
    {defaultCompare groupCompare : σ.Group → σ.Group → Bool} (order : StrictWeak groupCompare)
    (function : σ.Function) :
    (∀ actions w, Runs.Guarded World.step Undisturbed
        (World.construct combiner defaultCompare groupCompare owners) actions →
      Runs.run World.step (World.construct combiner defaultCompare groupCompare owners)
        actions = some w →
      Ruled groupCompare (World.construct combiner defaultCompare groupCompare owners) actions w) ↔
      ∀ x y, defaultCompare x y = groupCompare x y := by
  constructor
  · intro ruled group head
    obtain ⟨w, impl, _, after, single, ran, rfl, stepped⟩ :=
      connectTwice_runs combiner defaultCompare groupCompare owners head group function
    have ran' : Runs.run World.step (World.construct combiner defaultCompare groupCompare owners)
        (connectTwice head group function ++ [.section]) = some after := by
      rw [Runs.run_append, ran]
      simp only [Option.bind_some, Runs.run, stepped]
    have guarded := connectTwice_guarded head group function
      (World.construct combiner defaultCompare groupCompare owners)
    have before := (ruled _ _ ((Runs.guarded_append ran).mp guarded).1 ran).refines
    have later := (ruled _ _ guarded ran').refines
    have placed := single.placed stepped (before.sequence_step later ran stepped)
    rw [single.bodies stepped] at placed
    cases given : groupCompare group head <;> cases own : defaultCompare group head <;>
      simp [given, own] at placed ⊢
  · intro agree actions w guarded ran
    have same : defaultCompare = groupCompare := funext fun x => funext fun y => agree x y
    subst same
    exact ruled_of_agree order guarded ran

end World

/-! ### Runs -/

theorem connectGroups_ruled :
    ∃ w : World natSignal, Runs.run World.step natStart connectGroups = some w ∧
      World.Ruled (fun a b : Nat => decide (a < b)) natStart connectGroups w := by
  have ends : (Runs.run World.step natStart connectGroups).isSome := by decide +kernel
  obtain ⟨w, ran⟩ := Option.isSome_iff_exists.mp ends
  have guarded : Runs.Guarded World.step World.Undisturbed natStart connectGroups := by
    apply World.Undisturbed.of_forall
    · simp [connectGroups, connectGroup, connectBack]
    · simp [connectGroups, connectGroup, connectBack]
  refine ⟨w, ran, ?_⟩
  have agree : ∀ a b : Nat, decide (a < b) = decide (a < b) := fun _ _ => rfl
  exact (World.group_compare_rules natLess_strictWeak (10 : Nat)).mpr agree _ w guarded ran

/-- A comparison with a direction, default-constructed upwards and given downwards. -/
def downStart : World natSignal :=
  World.construct 0 (fun a b => decide (a < b)) (fun a b => decide (b < a)) fun _ => 0

/-- Groups one and two are connected, then the signal is called. -/
def callGroups : List (Action natSignal) :=
  [connectGroup 1 10 .atBack, .section, connectGroup 2 11 .atBack, .section, .section,
    .invoke, .section, .section, .lockNext 0, .section, .dereference 0, .slotReturns 0 5,
    .increment 0, .lockNext 0, .section, .dereference 0]

/-- Downwards group two comes first; group one is called first. -/
theorem callGroups_not_ruled :
    ∃ w : World natSignal, Runs.run World.step downStart callGroups = some w ∧
      calls (Runs.outputs World.step (World.callEvents 0) downStart callGroups) = [0, 1] ∧
      w.keyOf 0 = .groupedSlots 1 ∧ w.keyOf 1 = .groupedSlots 2 ∧
      ¬ World.Ruled (fun a b : Nat => decide (b < a)) downStart callGroups w := by
  have called : calls (Runs.outputs World.step (World.callEvents 0) downStart callGroups) = [0, 1] := by
    decide +kernel
  have ends : (Runs.run World.step downStart callGroups).map (fun w => (w.keyOf 0, w.keyOf 1)) =
      some (.groupedSlots 1, .groupedSlots 2) := by
    decide +kernel
  obtain ⟨w, ran, keys⟩ := Option.map_eq_some_iff.mp ends
  obtain ⟨first, second⟩ := Prod.mk.inj keys
  refine ⟨w, ran, called, first, second, fun ruled => ?_⟩
  have sorted := ruled.sorted 0
  rw [called] at sorted
  have ordered := List.rel_of_pairwise_cons sorted (List.mem_singleton.mpr rfl)
  rw [first, second] at ordered
  cases ordered

end Signals2
