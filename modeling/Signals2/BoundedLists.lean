/-
Dead bodies do not pile up.  While slots without a group are connected and disconnected
and nobody walks the list, each connect examines two nodes from the saved position on,
and this is enough: the list stays shorter than a bound that depends only on how many
slots are ever connected at a time.
-/

import Signals2.Library.ListWalks
import Signals2.Library.RovingSweeps
import Signals2.Refinement
import Signals2.Sweeps
import Signals2.UngroupedSlots

namespace Signals2

open LinkedLists RovingSweeps

variable {σ : SignalTemplate}

/-- No group, no invocation, no reader of the list. -/
def Action.ungrouped : Action σ → Bool
  | .connect arguments => arguments.group.isNone
  | .setCombiner _ => false
  | .invoke => false
  | .traverse _ => false
  | .destroy => false
  | _ => true

namespace World

variable {w w' : World σ} {a : Action σ} {limit : Nat} {impl : SignalImpl}

/-- Such a step, with no more than `limit` slots connected. -/
def FewConnected (limit : Nat) (w : World σ) (a : Action σ) : Prop :=
  a.ungrouped = true ∧ w.liveConnections.length ≤ limit

def aliveNode (w : World σ) (node : Nat × BodyId) : Bool := w.live node.2

theorem countP_aliveNode (present : w.heap.impl = some impl) :
    (w.heap.connectionBodies impl).list.nodes.countP w.aliveNode = w.liveConnections.length := by
  unfold liveConnections currentBodies
  rw [present, List.length_map, ← List.countP_eq_length_filter]
  exact (List.countP_map ..).symm

/-! ### The invariant -/

/-- Where the saved position stands, or the position of the sweep before a connect. -/
inductive RoverAt (limit : Nat) (w : World σ) (impl : SignalImpl) : Prop
  | ended (still : w.sweeping = false)
      (position : impl.garbageCollectorIt = (w.heap.connectionBodies impl).list.past)
      (short : (w.heap.connectionBodies impl).list.nodes.length ≤ roundStart limit)
  | resting (still : w.sweeping = false) (before rest : List (Nat × BodyId))
      (nodes : (w.heap.connectionBodies impl).list.nodes = before ++ rest)
      (position : impl.garbageCollectorIt = (w.heap.connectionBodies impl).list.iteratorTo rest)
      (inside : rest ≠ []) (bounded : Bounded limit w.aliveNode 0 before.length rest)
  | examining (i : Nat) (arguments : ConnectArguments σ) (before rest : List (Nat × BodyId))
      (critical : w.critical = some (.cleanupConnections
        ((w.heap.connectionBodies impl).list.iteratorTo rest) i 2 true (.connect arguments)))
      (plain : arguments.group = none)
      (nodes : (w.heap.connectionBodies impl).list.nodes = before ++ rest) (few : i ≤ 2)
      (bounded : Bounded limit w.aliveNode i before.length rest)

structure Roving (limit : Nat) (w : World σ) : Prop where
  isolated : w.Isolated
  invocations : w.invocations = []
  traversals : w.traversals = []
  rover : ∃ impl, w.heap.impl = some impl ∧
    (w.heap.connectionBodies impl).AllUngrouped w.keyOf ∧ RoverAt limit w impl

theorem construct_roving (limit : Nat) (combiner : σ.Combiner)
    (defaultCompare groupCompare : σ.Group → σ.Group → Bool) (owners : ObjectId → Nat) :
    (World.construct combiner defaultCompare groupCompare owners).Roving limit where
  isolated := construct_isolated combiner defaultCompare groupCompare owners
  invocations := rfl
  traversals := rfl
  rover := by
    refine ⟨_, rfl, GroupedList.construct_allUngrouped 0 defaultCompare groupCompare _, ?_⟩
    exact .ended rfl rfl (Nat.zero_le _)

theorem RoverAt.size (rover : RoverAt limit w impl) :
    (w.heap.connectionBodies impl).list.nodes.length ≤ capacity limit := by
  cases rover with
  | ended still position short =>
      unfold roundStart at short
      unfold capacity
      omega
  | resting still before rest nodes position inside bounded =>
      rw [nodes, List.length_append]
      exact bounded.size
  | examining i arguments before rest critical plain nodes few bounded =>
      rw [nodes, List.length_append]
      exact bounded.size

/-! ### Steps that leave the list alone -/

/-- What is alive after a step was alive before it. -/
theorem Roving.alive_before (roving : w.Roving limit) (effect : Effect w a w')
    {node : Nat × BodyId}
    (member : node ∈ (w.heap.connectionBodies impl).list.nodes)
    (now : w'.aliveNode node = true) : w.aliveNode node = true := by
  have below := roving.isolated.listed node.2 ⟨_, List.mem_map_of_mem member⟩
  exact (roving.isolated.live_before effect below now).1

theorem Roving.keys_kept (roving : w.Roving limit) (effect : Effect w a w')
    (impl : SignalImpl) : ∀ b ∈ (w.heap.connectionBodies impl).list.values,
      w'.keyOf b = w.keyOf b :=
  fun b member => effect.keyOf_kept (roving.isolated.listed b ⟨_, member⟩)

/-- A step does nothing to the list, to its cleanup and to who reads it. -/
structure ListKept (w w' : World σ) : Prop where
  heap : w'.heap = w.heap
  critical : w'.critical = w.critical ∨ w.sweeping = false ∧ w'.sweeping = false
  invocations : w'.invocations = w.invocations
  traversals : w'.traversals = w.traversals

theorem ListKept.refl (w : World σ) : ListKept w w := ⟨rfl, .inl rfl, rfl, rfl⟩

private theorem Roving.still (roving : w.Roving limit) (isolated : w'.Isolated)
    (effect : Effect w a w') (kept : ListKept w w') : w'.Roving limit := by
  obtain ⟨heap, critical, invocations, traversals⟩ := kept
  obtain ⟨impl, present, all, rover⟩ := roving.rover
  have still : w.sweeping = false → w'.sweeping = false := by
    intro before
    rcases critical with same | ⟨_, after⟩
    · simpa [sweeping, same] using before
    · exact after
  have alive : ∀ node ∈ (w.heap.connectionBodies impl).list.nodes,
      w'.aliveNode node = true → w.aliveNode node = true :=
    fun node member => roving.alive_before effect member
  refine {
    isolated := isolated
    invocations := invocations.trans roving.invocations
    traversals := traversals.trans roving.traversals
    rover := ⟨impl, by rw [heap]; exact present, ?_, ?_⟩ }
  · rw [heap]
    exact all.congr_keys (roving.keys_kept effect impl)
  · cases rover with
    | ended before position short =>
        apply RoverAt.ended (still before)
        · rw [heap]
          exact position
        · rw [heap]
          exact short
    | resting before behind rest nodes position inside bounded =>
        apply RoverAt.resting (still before) behind rest
        · rw [heap]
          exact nodes
        · rw [heap]
          exact position
        · exact inside
        · apply bounded.mono
          intro node member
          apply alive
          rw [nodes]
          exact List.mem_append_right _ member
    | examining i arguments behind rest held plain nodes few bounded =>
        have same : w'.critical = w.critical := by
          rcases critical with same | ⟨before, _⟩
          · exact same
          · simp [sweeping, held] at before
        apply RoverAt.examining i arguments behind rest
        · rw [same, heap]
          exact held
        · exact plain
        · rw [heap]
          exact nodes
        · exact few
        · apply bounded.mono
          intro node member
          apply alive
          rw [nodes]
          exact List.mem_append_right _ member

private theorem getBlocker_kept (b : BodyId) :
    (w.getBlocker b).1.heap = w.heap ∧ (w.getBlocker b).1.critical = w.critical ∧
      (w.getBlocker b).1.invocations = w.invocations ∧
      (w.getBlocker b).1.traversals = w.traversals := by
  unfold getBlocker
  split
  · split <;> exact ⟨rfl, rfl, rfl, rfl⟩
  · exact ⟨rfl, rfl, rfl, rfl⟩

/-- With no invocation and no reader, only connects and sections touch the list. -/
theorem Roving.kept (roving : w.Roving limit) (plain : a.ungrouped = true)
    (outsider : a ≠ .section) (connects : ∀ arguments, a ≠ .connect arguments)
    (stepped : w.step a = some w') : ListKept w w' := by
  have sound := (step_effect stepped).1
  have noInvocation : ∀ i : InvocationId, w.invocations[i]? = none := by
    simp [roving.invocations]
  have noTraversal : ∀ t : TraversalId, w.traversals[t]? = none := by
    simp [roving.traversals]
  cases a with
  | connect arguments => exact absurd rfl (connects arguments)
  | setCombiner combiner => cases plain
  | invoke => cases plain
  | traverse kind => cases plain
  | destroy => cases plain
  | «section» => exact absurd rfl outsider
  | disconnect b =>
      simp only [step, sound, World.disconnect, Option.isSome_none, Bool.false_eq_true, if_false]
        at stepped
      split at stepped
      · cases stepped
      · rename_i taken
        have free : w.critical = none := by simpa using taken
        split at stepped
        · cases stepped
          exact ⟨rfl, .inl free.symm, rfl, rfl⟩
        · cases stepped
          exact .refl w
  | promote b =>
      simp only [step, sound, World.promote, Option.isSome_none, Bool.false_eq_true, if_false]
        at stepped
      split at stepped
      · cases stepped
        exact ⟨rfl, .inl rfl, rfl, rfl⟩
      · cases stepped
  | connected b =>
      simp only [step, sound, World.connected, Option.isSome_none, Bool.false_eq_true, if_false]
        at stepped
      split at stepped
      · cases stepped
      · rename_i taken
        have free : w.critical = none := by simpa using taken
        split at stepped
        · cases stepped
          exact ⟨rfl, .inr ⟨sweeping_of_free free, rfl⟩, rfl, rfl⟩
        · cases stepped
          exact ⟨rfl, .inl rfl, rfl, rfl⟩
  | release n =>
      simp only [step, sound, World.release, Option.isSome_none, Bool.false_eq_true, if_false]
        at stepped
      split at stepped
      · cases stepped
        exact ⟨rfl, .inl rfl, rfl, rfl⟩
      · cases stepped
  | acquire o =>
      simp only [step, sound, World.acquire, Option.isSome_none, Bool.false_eq_true, if_false]
        at stepped
      split at stepped
      · cases stepped
        exact ⟨rfl, .inl rfl, rfl, rfl⟩
      · cases stepped
  | drop o =>
      simp only [step, sound, World.drop, Option.isSome_none, Bool.false_eq_true, if_false]
        at stepped
      split at stepped
      · cases stepped
        exact ⟨rfl, .inl rfl, rfl, rfl⟩
      · cases stepped
  | constructBlock b =>
      simp only [step, sound, World.constructBlock, Option.isSome_none, Bool.false_eq_true,
        if_false] at stepped
      cases stepped
      exact ⟨rfl, .inl rfl, rfl, rfl⟩
  | copyBlock k =>
      simp only [step, sound, World.copyBlock, Option.isSome_none, Bool.false_eq_true, if_false]
        at stepped
      obtain ⟨original, _, rfl⟩ := Option.map_eq_some_iff.mp stepped
      exact ⟨rfl, .inl rfl, rfl, rfl⟩
  | block k =>
      simp only [step, sound, World.block, Option.isSome_none, Bool.false_eq_true, if_false]
        at stepped
      split at stepped
      · cases stepped
      · split at stepped
        · cases stepped
          exact .refl w
        · split at stepped
          · cases stepped
            exact ⟨rfl, .inl rfl, rfl, rfl⟩
          · rename_i b _
            obtain ⟨heap, critical, invocations, traversals⟩ := getBlocker_kept (w := w) b
            split at stepped
            · cases stepped
            · cases stepped
              exact ⟨heap, .inl critical, invocations, traversals⟩
  | unblock k =>
      simp only [step, sound, World.unblock, Option.isSome_none, Bool.false_eq_true, if_false]
        at stepped
      obtain ⟨block, _, rfl⟩ := Option.map_eq_some_iff.mp stepped
      exact ⟨rfl, .inl rfl, rfl, rfl⟩
  | advance t => simp [step, sound, World.advance, noTraversal] at stepped
  | clearTracked i => simp [step, sound, World.clearTracked, noInvocation] at stepped
  | lockNext i => simp [step, sound, World.lockNext, noInvocation] at stepped
  | reachEnd i => simp [step, sound, World.reachEnd, noInvocation] at stepped
  | dereference i => simp [step, sound, World.dereference, noInvocation] at stepped
  | slotReturns i result => simp [step, sound, World.slotReturns, noInvocation] at stepped
  | slotThrows i expiredSlot => simp [step, sound, World.slotThrows, noInvocation] at stepped
  | increment i => simp [step, sound, World.increment, noInvocation] at stepped
  | finish i => simp [step, sound, World.finish, noInvocation] at stepped
  | janitor i => simp [step, sound, World.janitor, noInvocation] at stepped
  | destroyCache i => simp [step, sound, World.destroyCache, noInvocation] at stepped
  | releaseState i => simp [step, sound, World.releaseState, noInvocation] at stepped

/-- Nor do the other kinds of sections. -/
theorem Roving.grab_kept (roving : w.Roving limit) (still : w.sweeping = false)
    (stepped : w.step .section = some w') : ListKept w w' := by
  have sound := (step_effect stepped).1
  have noInvocation : ∀ i : InvocationId, w.invocations[i]? = none := by
    simp [roving.invocations]
  have noTraversal : ∀ t : TraversalId, w.traversals[t]? = none := by
    simp [roving.traversals]
  have finish : ∀ (client : GrabClient) (b : BodyId) (u : World σ), u.heap = w.heap →
      u.invocations = w.invocations → u.traversals = w.traversals →
      ListKept w (u.finishGrab client b) := by
    intro client b u heap invocations traversals
    cases client with
    | connected => exact ⟨heap, .inr ⟨still, rfl⟩, invocations, traversals⟩
    | iterator i =>
        simp only [finishGrab, invocations, noInvocation]
        exact ⟨heap, .inr ⟨still, rfl⟩, invocations, traversals⟩
    | traversal t =>
        simp only [finishGrab, traversals, noTraversal]
        exact ⟨heap, .inr ⟨still, rfl⟩, invocations, traversals⟩
  simp only [step, sound, Option.isSome_none, Bool.false_eq_true, if_false, sectionStep] at stepped
  split at stepped
  · cases stepped
  · rename_i client b todo locked critical
    cases stepped
    unfold grabStep
    cases todo with
    | nil => exact finish client b w rfl rfl rfl
    | cons p rest =>
        cases locked with
        | none =>
            dsimp only
            split
            · exact finish client b _ rfl rfl rfl
            · exact ⟨rfl, .inr ⟨still, rfl⟩, rfl, rfl⟩
        | some locked =>
            cases client with
            | connected => exact ⟨rfl, .inr ⟨still, rfl⟩, rfl, rfl⟩
            | traversal t => exact ⟨rfl, .inr ⟨still, rfl⟩, rfl, rfl⟩
            | iterator i =>
                simp only [insertLocked, noInvocation]
                exact ⟨rfl, .inr ⟨still, rfl⟩, rfl, rfl⟩
  · rename_i t b weakPimpl pimpl locked critical
    cases stepped
    simp only [containsStep, noTraversal]
    split <;> exact ⟨rfl, .inr ⟨still, rfl⟩, rfl, rfl⟩
  · rename_i it i count grabTracked after critical
    simp [sweeping, critical] at still

/-! ### A connect begins -/

theorem Roving.unique (roving : w.Roving limit) (present : w.heap.impl = some impl) :
    w.unique impl.sharedState = true := by
  simp [World.unique, useCount, present, roving.invocations, roving.traversals]

theorem Roving.connect (roving : w.Roving limit) {arguments : ConnectArguments σ}
    (isolated : w'.Isolated) (plain : arguments.group = none)
    (few : w.liveConnections.length ≤ limit) (stepped : w.step (.connect arguments) = some w') :
    w'.Roving limit := by
  obtain ⟨sound, effect⟩ := step_effect stepped
  simp only [step, sound, World.connect, Option.isSome_none, Bool.false_eq_true, if_false]
    at stepped
  obtain ⟨impl, locked, same⟩ := Option.map_eq_some_iff.mp stepped
  obtain ⟨free, present⟩ := lockImpl_some locked
  have unique := roving.unique present
  simp only [nolockForceUniqueConnectionList, unique, Bool.true_eq_false, if_false,
    nolockCleanupConnections] at same
  obtain ⟨impl', present', all, rover⟩ := roving.rover
  cases present.symm.trans present'
  have alive : ∀ node ∈ (w.heap.connectionBodies impl).list.nodes,
      w'.aliveNode node = true → w.aliveNode node = true :=
    fun node member => roving.alive_before effect member
  have begins : ∀ before rest, (w.heap.connectionBodies impl).list.nodes = before ++ rest →
      w' = w.enter (.cleanupConnections ((w.heap.connectionBodies impl).list.iteratorTo rest) 0 2
        true (.connect arguments)) →
      Bounded limit w.aliveNode 0 before.length rest → w'.Roving limit := by
    intro before rest nodes entered bounded
    have weaker : Bounded limit w'.aliveNode 0 before.length rest := by
      apply bounded.mono
      intro node member
      apply alive
      rw [nodes]
      exact List.mem_append_right _ member
    subst entered
    refine {
      isolated := isolated
      invocations := roving.invocations
      traversals := roving.traversals
      rover := ⟨impl, present, all, ?_⟩ }
    exact .examining 0 arguments before rest rfl plain nodes (Nat.zero_le 2) weaker
  cases rover with
  | ended still position short =>
      apply begins [] _ rfl
      · have past : impl.garbageCollectorIt = (w.heap.connectionBodies impl).past := position
        rw [← same, if_pos past]
        rfl
      · apply Bounded.begin short
        rw [countP_aliveNode present]
        exact few
  | resting still before rest nodes position inside bounded =>
      apply begins before rest nodes _ bounded
      have notPast : impl.garbageCollectorIt ≠ (w.heap.connectionBodies impl).past := by
        intro past
        rw [position] at past
        cases rest with
        | nil => exact inside rfl
        | cons node rest => cases congrArg Iterator.node past
      rw [← same, if_neg notPast, position]
  | examining i other before rest critical => simp [critical] at free

/-! ### One round of the sweep -/

/-- What has been checked for expiry and is connected is alive. -/
theorem live_of_checked {b : BodyId}
    (connected : ((w.checkExpired true b).bodies b).connected = true) : w.live b = true := by
  rw [live_iff]
  unfold checkExpired disconnectExpiredSlot at connected
  rw [if_pos rfl] at connected
  split at connected
  · rename_i gone
    refine ⟨connected, ?_⟩
    have noSlot : (w.bodies b).slot = none := by simpa using gone
    simp [slotExpired, ConnectionBody.trackedObjects, noSlot]
  · split at connected
    · have disconnected : ((w.nolockDisconnect b).bodies b).connected = false :=
        BodyStore.nolockDisconnect_connected b
      rw [disconnected] at connected
      cases connected
    · rename_i unexpired
      exact ⟨connected, by simpa using unexpired⟩

/-- The round of a sweep that has come to this node. -/
private theorem Roving.round (roving : w.Roving limit) (isolated : w'.Isolated)
    (few : w.liveConnections.length ≤ limit) (present : w.heap.impl = some impl)
    (all : (w.heap.connectionBodies impl).AllUngrouped w.keyOf) {i : Nat}
    {arguments : ConnectArguments σ} {before rest : List (Nat × BodyId)} {node : Nat × BodyId}
    (critical : w.critical = some (.cleanupConnections
      ((w.heap.connectionBodies impl).list.iteratorTo (node :: rest)) i 2 true
        (.connect arguments)))
    (plain : arguments.group = none)
    (nodes : (w.heap.connectionBodies impl).list.nodes = before ++ node :: rest) (due : i < 2)
    (bounded : Bounded limit w.aliveNode i before.length (node :: rest))
    (stepped : w.step .section = some w') : w'.Roving limit := by
  obtain ⟨sound, effect⟩ := step_effect stepped
  have here := value?_iteratorTo nodes
  have after := next_iteratorTo nodes
  have heap := checkExpired_heap w true node.2
  have ahead : (node :: rest).countP w.aliveNode ≤ limit := by
    have whole := countP_aliveNode present
    rw [nodes, List.countP_append] at whole
    omega
  have weaker : ∀ {i' behind}, Bounded limit w.aliveNode i' behind rest →
      Bounded limit w'.aliveNode i' behind rest := by
    intro i' behind stronger
    apply stronger.mono
    intro other member
    apply roving.alive_before effect
    rw [nodes]
    exact List.mem_append_right _ (List.mem_cons_of_mem node member)
  have inside : (w.heap.connectionBodies impl).list.iteratorTo (node :: rest) ≠
      (w.heap.connectionBodies impl).past := by
    intro same
    cases congrArg Iterator.node same
  have stepped' := step_sweeping sound critical
  rw [stepped'] at stepped
  simp only [cleanupStep, present, inside, ne_eq, not_false_eq_true, due, or_true, and_self,
    if_true, here, Option.some.injEq] at stepped
  obtain ⟨store, checked⟩ := checkExpired_store w true node.2
  cases connected : ((w.checkExpired true node.2).bodies node.2).connected with
  | true =>
      rw [if_neg (by simp [connected]), after] at stepped
      have passed : before.length + 1 ≤ before.length +
          if w.aliveNode node = true then 1 else 0 := by
        have live : w.aliveNode node = true := live_of_checked connected
        have counted : (if w.aliveNode node = true then 1 else 0) = 1 := if_pos live
        omega
      have later := weaker (bounded.examine ahead due passed)
      have heap' : w'.heap = w.heap := by
        rw [← stepped]
        exact heap
      refine {
        isolated := isolated
        invocations := by
          rw [← stepped, checked]
          exact roving.invocations
        traversals := by
          rw [← stepped, checked]
          exact roving.traversals
        rover := ⟨impl, by rw [heap']; exact present, ?_, ?_⟩ }
      · rw [heap']
        exact all.congr_keys (roving.keys_kept effect impl)
      · apply RoverAt.examining (i + 1) arguments (before ++ [node]) rest
        · rw [heap', ← stepped]
          rfl
        · exact plain
        · rw [heap', nodes]
          simp
        · exact due
        · simpa using later
  | false =>
      rw [if_pos connected] at stepped
      have key : ((w.checkExpired true node.2).bodies node.2).groupKey = w.keyOf node.2 :=
        ((checkExpired_ages true node.2).bodies node.2).groupKey
      rw [key] at stepped
      cases erased : (w.heap.connectionBodies impl).erase (w.keyOf node.2)
          ((w.heap.connectionBodies impl).list.iteratorTo (node :: rest)) with
      | none =>
          simp only [erased] at stepped
          have kept : ListKept w w' := by
            rw [← stepped, checked]
            exact ⟨rfl, .inl rfl, rfl, rfl⟩
          exact roving.still isolated effect kept
      | some result =>
          obtain ⟨list, next⟩ := result
          simp only [erased] at stepped
          obtain ⟨shorter, following⟩ := GroupedList.erase_some erased
          have later := weaker (bounded.examine ahead due (Nat.le_add_right before.length _))
          have list' : w'.heap.connectionBodies impl = list := by
            rw [← stepped]
            simp only [enter, setHeap, Heap.connectionBodies, Heap.setConnectionBodies,
              Function.update_self]
          have nodes' : list.list.nodes = before ++ rest := by
            rw [shorter]
            exact erase_nodes nodes
          refine {
            isolated := isolated
            invocations := by
              rw [← stepped, checked]
              exact roving.invocations
            traversals := by
              rw [← stepped, checked]
              exact roving.traversals
            rover := ⟨impl, by rw [← stepped]; exact present, ?_, ?_⟩ }
          · rw [list']
            apply (all.erase here erased).congr_keys
            intro b member
            apply roving.keys_kept effect impl
            rw [LinkedList.values, nodes'] at member
            rw [LinkedList.values, nodes]
            simp only [List.map_append, List.map_cons, List.mem_append, List.mem_cons] at member ⊢
            exact member.imp id .inr
          · apply RoverAt.examining (i + 1) arguments before rest
            · rw [list', ← stepped, following, after]
              simp only [enter, shorter]
              rfl
            · exact plain
            · rw [list']
              exact nodes'
            · exact due
            · exact later

/-! ### The connect ends -/

theorem finishCleanup_connect {it : Iterator} {arguments : ConnectArguments σ} :
    (w.finishCleanup impl it (.connect arguments)).heap.connectionBodies
        { impl with garbageCollectorIt := it } =
      pushConnection (w.heap.connectionBodies impl) arguments w.nextBody := by
  simp only [finishCleanup, insertConnection, unlock, setHeap, Heap.connectionBodies,
    Heap.setConnectionBodies, Heap.setGarbageCollectorIt, Function.update_self]

theorem pushConnection_ungrouped {list : GroupedList σ.Group BodyId}
    {keyOf : BodyId → GroupKey σ.Group} (all : list.AllUngrouped keyOf)
    {arguments : ConnectArguments σ} (plain : arguments.group = none) {b : BodyId}
    (keyed : keyOf b = groupKeyOf arguments) :
    (pushConnection list arguments b).AllUngrouped keyOf ∧
      ((pushConnection list arguments b).list.nodes = (list.list.fresh, b) :: list.list.nodes ∨
        (pushConnection list arguments b).list.nodes =
          list.list.nodes ++ [(list.list.fresh, b)]) := by
  unfold pushConnection
  unfold groupKeyOf at keyed ⊢
  simp only [plain] at keyed ⊢
  cases position : arguments.position with
  | atFront =>
      simp only [position] at keyed ⊢
      obtain ⟨pushed, nodes⟩ := all.pushFront keyed
      exact ⟨pushed, .inl nodes⟩
  | atBack =>
      simp only [position] at keyed ⊢
      obtain ⟨pushed, nodes⟩ := all.pushBack keyed
      exact ⟨pushed, .inr nodes⟩

/-- The saved position, and where the new node has come to lie. -/
private theorem Roving.finish (roving : w.Roving limit) (isolated : w'.Isolated)
    (effect : Effect w .section w')
    (all : (w.heap.connectionBodies impl).AllUngrouped w.keyOf) {i : Nat}
    {arguments : ConnectArguments σ} {before rest : List (Nat × BodyId)}
    (plain : arguments.group = none)
    (nodes : (w.heap.connectionBodies impl).list.nodes = before ++ rest)
    (bounded : Bounded limit w.aliveNode i before.length rest) (done : rest = [] ∨ i = 2)
    (finished : w' = w.finishCleanup impl ((w.heap.connectionBodies impl).list.iteratorTo rest)
      (.connect arguments)) : w'.Roving limit := by
  generalize there : (w.heap.connectionBodies impl).list.iteratorTo rest = it at finished
  have weaker : Bounded limit w'.aliveNode i before.length rest := by
    apply bounded.mono
    intro node member
    apply roving.alive_before effect
    rw [nodes]
    exact List.mem_append_right _ member
  have old := all.congr_keys (roving.keys_kept effect impl)
  have still : w'.sweeping = false := by
    rw [finished]
    exact sweeping_of_free (finishCleanup_critical w impl it _)
  have keyed : w'.keyOf w.nextBody = groupKeyOf arguments := by
    rw [finished]
    unfold keyOf
    rw [finishCleanup_bodies]
    rfl
  have pushed : w'.heap.connectionBodies { impl with garbageCollectorIt := it } =
      pushConnection (w.heap.connectionBodies impl) arguments w.nextBody := by
    rw [finished]
    exact finishCleanup_connect
  have name := pushConnection_name (w.heap.connectionBodies impl) arguments w.nextBody
  obtain ⟨ungrouped, ends⟩ := pushConnection_ungrouped old plain keyed
  generalize pushConnection (w.heap.connectionBodies impl) arguments w.nextBody = list
    at pushed name ungrouped ends
  generalize new : ((w.heap.connectionBodies impl).list.fresh, w.nextBody) = node at ends
  refine {
    isolated := isolated
    invocations := by
      rw [finished]
      exact roving.invocations
    traversals := by
      rw [finished]
      exact roving.traversals
    rover := ⟨{ impl with garbageCollectorIt := it }, by rw [finished]; rfl, ?_, ?_⟩ }
  · rw [pushed]
    exact ungrouped
  · cases rest with
    | nil =>
        apply RoverAt.ended still
        · rw [pushed, ← there]
          simp only [LinkedList.iteratorTo, LinkedList.past, firstNode, name]
        · have short := bounded.ended rfl
          rw [List.append_nil] at nodes
          rw [pushed]
          rcases ends with front | back
          · rw [front, nodes, List.length_cons]
            exact short
          · rw [back, nodes, List.length_append, List.length_singleton]
            exact short
    | cons first rest =>
        have full : i = 2 := by simpa using done
        subst full
        rcases ends with front | back
        · apply RoverAt.resting still (node :: before) (first :: rest)
          · rw [pushed, front, nodes]
            rfl
          · rw [pushed, ← there]
            exact (iteratorTo_congr name first rest rest).symm
          · simp
          · exact weaker.prepend
        · apply RoverAt.resting still before (first :: rest ++ [node])
          · rw [pushed, back, nodes]
            simp
          · rw [pushed, ← there]
            exact (iteratorTo_congr name first _ rest).symm
          · simp
          · exact weaker.append node

theorem Roving.step (roving : w.Roving limit) (few : w.FewConnected limit a)
    (stepped : w.step a = some w') : w'.Roving limit := by
  obtain ⟨plain, bound⟩ := few
  obtain ⟨sound, effect⟩ := step_effect stepped
  have unread : ListUnread .invocation w a := by
    intro combiner same
    subst same
    cases plain
  have isolated : w'.Isolated := roving.isolated.step unread stepped
  by_cases connects : ∃ arguments, a = .connect arguments
  · obtain ⟨arguments, rfl⟩ := connects
    apply roving.connect isolated _ bound stepped
    simpa [Action.ungrouped] using plain
  by_cases inside : a = .section
  · subst inside
    cases still : w.sweeping with
    | false => exact roving.still isolated effect (roving.grab_kept still stepped)
    | true =>
        obtain ⟨impl, present, all, rover⟩ := roving.rover
        cases rover with
        | ended no => simp [no] at still
        | resting no => simp [no] at still
        | examining i arguments before rest critical connects nodes few bounded =>
            by_cases finished : rest = [] ∨ i = 2
            · have ends : ¬ ((w.heap.connectionBodies impl).list.iteratorTo rest ≠
                  (w.heap.connectionBodies impl).past ∧ (2 = 0 ∨ i < 2)) := by
                rcases finished with rfl | rfl
                · exact fun goes => goes.1 rfl
                · omega
              apply roving.finish isolated effect all connects nodes bounded finished
              rw [step_sweeping sound critical] at stepped
              simp only [cleanupStep, present, if_neg ends, Option.some.injEq] at stepped
              exact stepped.symm
            · simp only [not_or] at finished
              obtain ⟨node, rest, rfl⟩ := List.exists_cons_of_ne_nil finished.1
              have due : i < 2 := by omega
              exact roving.round isolated bound present all critical connects nodes due bounded
                stepped
  · have apart : ∀ arguments, a ≠ .connect arguments := by simpa using connects
    have kept := roving.kept plain inside apart stepped
    exact roving.still isolated effect kept

theorem Roving.run {actions : List (Action σ)} (roving : w.Roving limit)
    (guarded : Runs.Guarded World.step (FewConnected limit) w actions)
    (ran : Runs.run World.step w actions = some w') : w'.Roving limit :=
  Runs.run_invariant (fun _ _ _ holds few stepped => holds.step few stepped) roving guarded ran

/-- The signal's list has at most so many elements, connected or dead. -/
def ListWithin (bound : Nat) (w : World σ) : Prop :=
  ∃ impl, w.heap.impl = some impl ∧
    (w.heap.connectionBodies impl).list.nodes.length ≤ bound

theorem dead_bodies_bounded {combiner : σ.Combiner}
    {defaultCompare groupCompare : σ.Group → σ.Group → Bool} {owners : ObjectId → Nat}
    {actions : List (Action σ)}
    (few : Runs.Guarded World.step (FewConnected limit)
      (World.construct combiner defaultCompare groupCompare owners) actions)
    (ran : Runs.run World.step (World.construct combiner defaultCompare groupCompare owners)
      actions = some w) : w.ListWithin (8 * limit + 4) := by
  have start := construct_roving limit combiner defaultCompare groupCompare owners
  obtain ⟨impl, present, _, rover⟩ := (start.run few ran).rover
  exact ⟨impl, present, rover.size⟩

end World

/-! ### A run -/

def connectFront (function : Nat) : Action natSignal :=
  .connect { group := none, slot := .ofFunctor function [], position := .atFront }

/-- Three slots go at once, and the next connect removes two of the dead bodies. -/
def leaveOneBehind : List (Action natSignal) :=
  [connectBack 10, .section, connectFront 11, .section, .section, connectBack 12, .section,
    .section, .section, .disconnect 0, .disconnect 1, .disconnect 2, connectBack 13, .section,
    .section, .section]

theorem leaveOneBehind_bounded :
    ∃ w, Runs.run World.step natStart leaveOneBehind = some w ∧
      w.currentBodies = [2, 3] ∧ w.liveConnections.length = 1 ∧ w.ListWithin (8 * 3 + 4) := by
  have ends : (Runs.run World.step natStart leaveOneBehind).map (fun w =>
      (w.currentBodies, w.liveConnections.length)) = some ([2, 3], 1) := by decide +kernel
  obtain ⟨w, ran, result⟩ := Option.map_eq_some_iff.mp ends
  obtain ⟨bodies, live⟩ := Prod.mk.inj result
  have few : Runs.checked World.step (fun w a =>
      a.ungrouped && decide (w.liveConnections.length ≤ 3)) natStart leaveOneBehind = true := by
    decide +kernel
  refine ⟨w, ran, bodies, live, World.dead_bodies_bounded (.of_checked ?_ few) ran⟩
  intro s a holds
  obtain ⟨plain, bound⟩ := Bool.and_eq_true_iff.mp holds
  exact ⟨plain, of_decide_eq_true bound⟩

end Signals2
