/-
What `num_slots` and `empty` answer.  Each of them counts along the list that it
started on while others connect, disconnect and let tracked objects go, so its
answer is about the time of the call: no slot is counted that was not live when
the call began, and none is missed that is live when it ends.
-/

import Signals2.Refinement

namespace Signals2

open LinkedLists OrderedInsertion

variable {σ : SignalTemplate}

/-- The call counts connected slots. -/
def TraversalKind.Counts (kind : TraversalKind σ) : Prop := kind = .numSlots ∨ kind = .empty

namespace World

variable {o w w' : World σ} {a : Action σ} {compare : σ.Group → σ.Group → Bool}
  {t : TraversalId} {tr tr' : Traversal σ}

/-! ### What was there before -/

/-- What a later state has of the bodies and of the owned objects, the earlier state `o` had. -/
structure Since (o w : World σ) : Prop where
  nextBody : o.nextBody ≤ w.nextBody
  connected : ∀ b < o.nextBody, (w.bodies b).connected = true → (o.bodies b).connected = true
  slot : ∀ b < o.nextBody, ∀ slot, (w.bodies b).slot = some slot → (o.bodies b).slot = some slot
  owned : ∀ x, w.owned x = true → o.owned x = true

theorem Since.refl (w : World σ) : Since w w :=
  ⟨Nat.le_refl _, fun _ _ => id, fun _ _ _ => id, fun _ => id⟩

theorem Since.step (since : Since o w) (effect : Effect w a w') : Since o w' where
  nextBody := Nat.le_trans since.nextBody effect.nextBody_le
  connected b below now := by
    have known : b < w.nextBody := Nat.lt_of_lt_of_le below since.nextBody
    exact since.connected b below (effect.connected_kept known now)
  slot b below slot now := by
    have known : b < w.nextBody := Nat.lt_of_lt_of_le below since.nextBody
    exact since.slot b below slot (effect.slot_kept known now)
  owned x now := by
    apply since.owned
    cases before : w.owned x with
    | true => rfl
    | false =>
        rw [effect.stays before] at now
        cases now

/-- A connection is live where it is connected and each of its objects has an owner. -/
theorem Since.live_of_witnessed (since : Since o w) (counted : w.Counted) {b : BodyId}
    (below : b < o.nextBody) (connected : (w.bodies b).connected = true)
    (witnessed : ∀ slot, (w.bodies b).slot = some slot → ∀ p ∈ slot.trackedObjects,
      o.owned p.object = true) : o.live b = true := by
  obtain ⟨slot, held⟩ := counted.slot_of_connected connected
  refine live_iff.mpr ⟨since.connected b below connected, ?_⟩
  rw [slotExpired_of_slot (since.slot b below slot held), List.any_eq_false]
  intro p tracked gone
  have owned := witnessed slot held p tracked
  rw [expired_iff.mp gone] at owned
  cases owned

theorem Since.live (since : Since o w) (counted : w.Counted) {b : BodyId}
    (below : b < o.nextBody) (now : w.live b = true) : o.live b = true := by
  obtain ⟨connected, unexpired⟩ := live_iff.mp now
  refine since.live_of_witnessed counted below connected fun slot held p tracked => ?_
  exact since.owned _ (unexpired_of_slot held unexpired tracked)

/-! ### Steps of a call that counts -/

/-- What a step makes of such a call. -/
inductive CountStep (w : World σ) (t : TraversalId) (tr : Traversal σ) :
    World σ → Traversal σ → Prop
  | same (w' : World σ) : CountStep w t tr w' tr
  | finish (w' : World σ) (finished : tr.it = tr.endIt ∨ tr.answered = true) :
      CountStep w t tr w' { tr with localState := none }
  | count (b : BodyId) (todo : List VoidWeakPtr) (locked : Option (Option ObjectId)) (u w' : World σ)
      (critical : w.critical = some (.grabTrackedObjects (.traversal t) b todo locked))
      (ended : Ended w b todo locked u) (bodies : w'.bodies = u.bodies) :
      CountStep w t tr w'
        { tr with
          it := w.iteratorAfter tr.localState tr.it
          count := if (u.bodies b).connected then tr.count + 1 else tr.count }

theorem Effect.countStep (effect : Effect w a w') (walked : w.SectionWalked)
    (found : w.traversals[t]? = some tr) (counts : tr.kind.Counts) :
    ∃ tr', w'.traversals[t]? = some tr' ∧ CountStep w t tr w' tr' := by
  have bound := (List.getElem?_eq_some_iff.mp found).1
  have same : w'.traversals = w.traversals →
      ∃ tr', w'.traversals[t]? = some tr' ∧ CountStep w t tr w' tr' := by
    intro traversals
    exact ⟨tr, traversals ▸ found, .same w'⟩
  -- a step of another traversal
  have apart : ∀ (t' : TraversalId) (new : Traversal σ), t' ≠ t →
      w'.traversals = w.traversals.set t' new →
      ∃ tr', w'.traversals[t]? = some tr' ∧ CountStep w t tr w' tr' := by
    intro t' new different traversals
    refine ⟨tr, ?_, .same w'⟩
    rw [traversals, List.getElem?_set_ne different]
    exact found
  cases effect with
  | traverse impl kind free present =>
      exact ⟨tr, (List.getElem?_append_left bound).trans found, .same _⟩
  | count t' b todo locked u old critical ended found' =>
      by_cases here : t' = t
      · subst here
        cases found.symm.trans found'
        refine ⟨_, ?_, .count b todo locked u _ critical ended ?_⟩
        · obtain ⟨store, rfl⟩ := ended.store
          exact List.getElem?_set_self bound
        · rfl
      · obtain ⟨store, rfl⟩ := ended.store
        exact apart t' _ here rfl
  | contains t' b weakPimpl pimpl locked u old critical tested found' =>
      by_cases here : t' = t
      · subst here
        have kind := (walked.contains critical found).1
        rcases counts with same | same <;> rw [same] at kind <;> cases kind
      · obtain ⟨store, rfl⟩ := tested_store tested
        exact apart t' _ here rfl
  | walkDisconnect t' old b free found' inside here targets =>
      by_cases same : t' = t
      · subst same
        cases found.symm.trans found'
        rcases counts with kind | kind <;> simp [World.targets, kind] at targets
      · exact apart t' _ same rfl
  | walk t' old new found' walk =>
      by_cases here : t' = t
      · subst here
        cases found.symm.trans found'
        cases walk with
        | dead argument b free kind inside here disconnected =>
            rcases counts with same | same <;> rw [same] at kind <;> cases kind
        | other argument b slot free kind inside here held differs noSignal =>
            rcases counts with same | same <;> rw [same] at kind <;> cases kind
        | finish progress finished =>
            exact ⟨_, List.getElem?_set_self bound, .finish _ finished⟩
      · exact apart t' _ here rfl
  | keep client b p rest locked critical =>
      apply same
      unfold insertLocked
      split
      · split <;> rfl
      · rfl
  | answer b todo locked u critical ended =>
      obtain ⟨store, rfl⟩ := ended.store
      exact same rfl
  | skip i b todo locked u inv critical ended found' blocked =>
      obtain ⟨store, rfl⟩ := ended.store
      exact same rfl
  | lost client b todo locked u critical ended missing =>
      obtain ⟨store, rfl⟩ := ended.store
      exact same rfl
  | containsLost t' b weakPimpl pimpl locked u critical tested missing =>
      obtain ⟨store, rfl⟩ := tested_store tested
      exact same rfl
  | sweepErase it i count grabTracked after impl b list next critical present inside more here
      dead erased =>
      obtain ⟨store, equal⟩ := checkExpired_store w grabTracked b
      rw [equal] at same ⊢
      exact same rfl
  | sweepSkip it i count grabTracked after impl b critical present inside more here connected =>
      obtain ⟨store, equal⟩ := checkExpired_store w grabTracked b
      rw [equal] at same ⊢
      exact same rfl
  | sweepEnd it i count grabTracked after impl critical present done =>
      apply same
      unfold finishCleanup
      cases after with
      | connect arguments => rfl
      | invoke => rfl
      | forceCleanup j =>
          dsimp only
          split <;> rfl
  | outside w' outside => exact same outside.traversals
  | fault u f cause u_eq =>
      rcases u_eq with rfl | ⟨grabTracked, b, rfl⟩
      · exact same rfl
      · obtain ⟨store, equal⟩ := checkExpired_store w grabTracked b
        rw [equal] at same ⊢
        exact same rfl
  | _ => exact same rfl

/-! ### What the call has found so far -/

/-- What the grab has not looked at yet. -/
def waiting (todo : List VoidWeakPtr) (locked : Option (Option ObjectId)) : List VoidWeakPtr :=
  if locked.isSome then todo.tail else todo

/-- The objects that the client has found alive at the slot it looks at had owners in the
earlier state. -/
def Witnessed (o : World σ) (client : GrabClient) (w : World σ) : Prop :=
  ∀ b todo locked, w.critical = some (.grabTrackedObjects client b todo locked) →
    b < w.nextBody ∧ ∀ slot, (w.bodies b).slot = some slot → ∀ p ∈ slot.trackedObjects,
      o.owned p.object = true ∨ p ∈ waiting todo locked

theorem Witnessed.step {client : GrabClient} (witnessed : Witnessed o client w)
    (since : Since o w) (known : ∀ b, w.GrabReady client b → b < w.nextBody)
    (effect : Effect w a w') : Witnessed o client w' := by
  have change := effect.sectionChange
  have later := effect.nextBody_le
  intro b todo locked taken
  cases change with
  | same critical =>
      rw [critical] at taken
      obtain ⟨below, alive⟩ := witnessed b todo locked taken
      refine ⟨Nat.lt_of_lt_of_le below later, fun slot held => ?_⟩
      exact alive slot (effect.slot_kept below held)
  | free critical =>
      rw [critical] at taken
      cases taken
  | sweep it i count grabTracked after critical =>
      rw [critical] at taken
      cases taken
  | grab other c ready =>
      cases taken
      refine ⟨known b ready, fun slot held p tracked => .inr ?_⟩
      have here : (w.bodies b).slot = some slot := held
      simpa [waiting, ConnectionBody.trackedObjects, here] using tracked
  | promote other c q rest before alive =>
      cases taken
      obtain ⟨below, found⟩ := witnessed b (q :: rest) none before
      refine ⟨below, fun slot held p tracked => ?_⟩
      rcases found slot held p tracked with owned | waits
      · exact .inl owned
      · rcases List.mem_cons.mp waits with rfl | behind
        · exact .inl (since.owned _ (not_expired_iff.mp alive))
        · exact .inr behind
  | keep other c q rest object before =>
      cases taken
      obtain ⟨below, found⟩ := witnessed b (q :: todo) (some object) before
      refine ⟨Nat.lt_of_lt_of_le below later, fun slot held => ?_⟩
      exact found slot (effect.slot_kept below held)
  | contains t' c weakPimpl pimpl => cases taken

/-- A slot that the grab leaves connected was live in the earlier state. -/
theorem Witnessed.live {client : GrabClient} (witnessed : Witnessed o client w)
    (since : Since o w) (counted : w.Counted) {b : BodyId} {todo : List VoidWeakPtr}
    {locked : Option (Option ObjectId)} {u : World σ} (below : b < o.nextBody)
    (critical : w.critical = some (.grabTrackedObjects client b todo locked))
    (ended : Ended w b todo locked u) (connected : (u.bodies b).connected = true) :
    o.live b = true := by
  cases ended with
  | grabbed locked =>
      refine since.live_of_witnessed counted below connected fun slot held p tracked => ?_
      rcases (witnessed b [] locked critical).2 slot held p tracked with owned | waits
      · exact owned
      · cases locked <;> cases waits
  | expired p rest expired =>
      have lost : ((w.nolockDisconnect b).bodies b).connected = false :=
        BodyStore.nolockDisconnect_connected b
      rw [lost] at connected
      cases connected

/-- The call stands between the nodes that it has passed and the rest of its list. -/
structure Tallied (o w : World σ) (tr : Traversal σ) (s : StateId)
    (before rest : List (Nat × BodyId)) : Prop where
  nodes : (w.listOf s).list.nodes = before ++ rest
  it : tr.it = (w.listOf s).list.iteratorTo rest
  endIt : tr.endIt = (w.listOf s).list.iteratorTo []
  bodies : (before ++ rest).map Prod.snd = o.currentBodies
  atMost : tr.count ≤ (before.map Prod.snd).countP o.live
  atLeast : (before.map Prod.snd).countP w.live ≤ tr.count

structure CountTally (o w : World σ) (tr : Traversal σ) : Prop where
  underway : ∀ s, tr.localState = some s → ∃ before rest, Tallied o w tr s before rest
  atMost : tr.count ≤ o.currentBodies.countP o.live
  returned : tr.localState = none →
    tr.answered = true ∨ o.currentBodies.countP w.live ≤ tr.count

theorem Tallied.ended {s : StateId} {before rest : List (Nat × BodyId)}
    (tallied : Tallied o w tr s before rest) (done : tr.it = tr.endIt) : rest = [] := by
  have all : (w.listOf s).list.nodes = (before ++ rest) ++ [] := by
    rw [tallied.nodes, List.append_nil]
  exact iteratorTo_injective tallied.nodes all (tallied.it.symm.trans (done.trans tallied.endIt))

theorem Tallied.later {s : StateId} {before rest : List (Nat × BodyId)}
    (tallied : Tallied o w tr s before rest)
    (live : ∀ b ∈ o.currentBodies, w'.live b = true → w.live b = true)
    (list : w'.listOf s = w.listOf s) : Tallied o w' tr s before rest where
  nodes := by rw [list]; exact tallied.nodes
  it := by rw [list]; exact tallied.it
  endIt := by rw [list]; exact tallied.endIt
  bodies := tallied.bodies
  atMost := tallied.atMost
  atLeast := by
    refine Nat.le_trans (List.countP_mono_left fun b member => ?_) tallied.atLeast
    apply live b
    rw [← tallied.bodies, List.map_append]
    exact List.mem_append_left _ member

/-- The call passes the node on which it stands; a slot that it counts was live in the
earlier state, and one that it does not count is not live any more. -/
theorem Tallied.pass {s : StateId} {node : Nat × BodyId} {before later : List (Nat × BodyId)}
    (tallied : Tallied o w tr s before (node :: later)) {count : Nat}
    (counts : count = tr.count ∧ w.live node.2 = false ∨
      count = tr.count + 1 ∧ o.live node.2 = true) :
    Tallied o w { tr with it := (w.listOf s).list.iteratorTo later, count := count } s
      (before ++ [node]) later where
  nodes := by
    rw [tallied.nodes]
    simp
  it := rfl
  endIt := tallied.endIt
  bodies := by
    rw [← tallied.bodies]
    simp
  atMost := by
    have before := tallied.atMost
    rw [List.map_append, List.countP_append]
    rcases counts with ⟨same, _⟩ | ⟨more, alive⟩
    · dsimp only
      omega
    · simp only [List.map_cons, List.map_nil, List.countP_cons, List.countP_nil, alive, if_true]
      omega
  atLeast := by
    have before := tallied.atLeast
    rw [List.map_append, List.countP_append]
    rcases counts with ⟨same, dead⟩ | ⟨more, alive⟩
    · simp only [List.map_cons, List.map_nil, List.countP_cons, List.countP_nil, dead]
      simp only [Bool.false_eq_true, if_false]
      omega
    · have one : ([node].map Prod.snd).countP w.live ≤ 1 := by
        exact Nat.le_trans List.countP_le_length (by simp)
      dsimp only at one ⊢
      omega

theorem Tallied.bounded {s : StateId} {before rest : List (Nat × BodyId)}
    (tallied : Tallied o w tr s before rest) : tr.count ≤ o.currentBodies.countP o.live := by
  have before := tallied.atMost
  rw [← tallied.bodies, List.map_append, List.countP_append]
  omega

/-- What the grab of a slot comes to: a slot found alive was live in the earlier state,
one found expired or disconnected is not live now. -/
theorem Orderly.examined (orderly : w.Orderly compare) (since : Since o w)
    (witnessed : Witnessed o (.traversal t) w) {b : BodyId} {todo : List VoidWeakPtr}
    {locked : Option (Option ObjectId)} {u : World σ} (below : b < o.nextBody)
    (critical : w.critical = some (.grabTrackedObjects (.traversal t) b todo locked))
    (ended : Ended w b todo locked u) :
    (u.bodies b).connected = false ∧ w.live b = false ∨
      (u.bodies b).connected = true ∧ o.live b = true := by
  have counted := orderly.guarding.isolated.counted
  cases connected : (u.bodies b).connected with
  | true => exact .inr ⟨rfl, witnessed.live since counted below critical ended connected⟩
  | false =>
      refine .inl ⟨rfl, ?_⟩
      cases ended with
      | grabbed locked => simp [World.live, connected]
      | expired p rest expired =>
          by_contra alive
          obtain ⟨before, unexpired⟩ := live_iff.mp (by simpa using alive)
          obtain ⟨slot, held⟩ := counted.slot_of_connected before
          have tracked := orderly.todo _ _ _ _ critical slot held p List.mem_cons_self
          have owned := unexpired_of_slot held unexpired tracked
          rw [expired_iff.mp expired] at owned
          cases owned

theorem CountTally.step (tally : CountTally o w tr) (orderly : w.Orderly compare) (since : Since o w)
    (witnessed : Witnessed o (.traversal t) w) (below : ∀ b ∈ o.currentBodies, b < o.nextBody)
    (live : ∀ b ∈ o.currentBodies, w'.live b = true → w.live b = true)
    (found : w.traversals[t]? = some tr)
    (lists : ∀ s, tr.localState = some s → w'.listOf s = w.listOf s)
    (how : CountStep w t tr w' tr') : CountTally o w' tr' := by
  have fewer : o.currentBodies.countP w'.live ≤ o.currentBodies.countP w.live :=
    List.countP_mono_left live
  cases how with
  | same =>
      exact {
        underway := fun s state => by
          obtain ⟨before, rest, tallied⟩ := tally.underway s state
          exact ⟨before, rest, tallied.later live (lists s state)⟩
        atMost := tally.atMost
        returned := fun gone => (tally.returned gone).imp id (Nat.le_trans fewer) }
  | finish w' finished =>
      refine ⟨(fun s state => by cases state), tally.atMost, fun _ => ?_⟩
      cases state : tr.localState with
      | none => exact (tally.returned state).imp id (Nat.le_trans fewer)
      | some s =>
          rcases finished with atEnd | answered
          · right
            obtain ⟨before, rest, tallied⟩ := tally.underway s state
            have all := tallied.bodies
            rw [tallied.ended atEnd, List.append_nil] at all
            rw [← all] at fewer ⊢
            exact Nat.le_trans fewer tallied.atLeast
          · exact .inl answered
  | count b todo locked u w' critical ended bodies =>
      obtain ⟨_, _, inside, here⟩ := orderly.walking.criticalWalked.grab critical found
      have progress : tr.localState ≠ none := by
        intro gone
        rw [gone] at here
        cases here
      obtain ⟨s, state⟩ := Option.ne_none_iff_exists'.mp progress
      obtain ⟨before, rest, tallied⟩ := tally.underway s state
      cases rest with
      | nil => exact absurd (tallied.it.trans tallied.endIt.symm) inside
      | cons node later =>
          have there : w.bodyAt tr.localState tr.it = some node.2 := by
            rw [state, tallied.it]
            exact value?_iteratorTo tallied.nodes
          cases here.symm.trans there
          have next : w.iteratorAfter tr.localState tr.it =
              (w.listOf s).list.iteratorTo later := by
            rw [state, tallied.it]
            exact next_iteratorTo tallied.nodes
          have known : node.2 < o.nextBody := by
            apply below
            rw [← tallied.bodies]
            simp
          have passed : Tallied o w
              { tr with
                it := (w.listOf s).list.iteratorTo later
                count := if (u.bodies node.2).connected then tr.count + 1 else tr.count } s
              (before ++ [node]) later := by
            apply tallied.pass
            rcases orderly.examined since witnessed known critical ended with
              ⟨lost, dead⟩ | ⟨connected, alive⟩
            · exact .inl ⟨by simp [lost], dead⟩
            · exact .inr ⟨by simp [connected], alive⟩
          rw [next]
          refine ⟨fun s' same => ?_, passed.bounded, fun gone => ?_⟩
          · cases state.symm.trans same
            exact ⟨_, _, passed.later live (lists s state)⟩
          · cases state.symm.trans gone

/-! ### Runs -/

/-- What every run keeps of a call that has started in the state `o`. -/
structure Counting (compare : σ.Group → σ.Group → Bool) (o : World σ) (kind : TraversalKind σ)
    (w : World σ) : Prop where
  orderly : w.Orderly compare
  since : Since o w
  witnessed : Witnessed o (.traversal o.traversals.length) w
  tally : ∃ tr, w.traversals[o.traversals.length]? = some tr ∧ tr.kind = kind ∧ CountTally o w tr

theorem Counting.step {kind : TraversalKind σ} (counting : Counting compare o kind w)
    (order : StrictWeak compare) (counts : kind.Counts) (below : ∀ b ∈ o.currentBodies, b < o.nextBody)
    (undisturbed : Undisturbed w a) (stepped : w.step a = some w') :
    Counting compare o kind w' := by
  have effect := (step_effect stepped).2
  have isolated := counting.orderly.guarding.isolated
  have walked := counting.orderly.walking.criticalWalked
  obtain ⟨tr, found, same, tally⟩ := counting.tally
  have live : ∀ b ∈ o.currentBodies, w'.live b = true → w.live b = true := by
    intro b member now
    have known : b < w.nextBody := Nat.lt_of_lt_of_le (below b member) counting.since.nextBody
    exact (isolated.live_before effect known now).1
  have lists : ∀ s, tr.localState = some s → w'.listOf s = w.listOf s := fun s state =>
    (counting.orderly.apart.kept isolated.sharing effect.change
      (List.mem_map.mpr ⟨tr, List.mem_of_getElem? found, state⟩)).2
  have known : ∀ b, w.GrabReady (.traversal o.traversals.length) b → b < w.nextBody := by
    rintro b ⟨_, _, _, _, _, here⟩
    exact isolated.listed b (bodyAt_listed here)
  obtain ⟨tr', found', how⟩ := effect.countStep walked found (same ▸ counts)
  refine ⟨counting.orderly.step order undisturbed stepped, counting.since.step effect,
    counting.witnessed.step counting.since known effect, tr', found', ?_,
    tally.step counting.orderly counting.since counting.witnessed below live found lists how⟩
  cases how <;> exact same

theorem Orderly.starts_counting {kind : TraversalKind σ} (orderly : w.Orderly compare)
    (order : StrictWeak compare) (counts : kind.Counts) (stepped : w.step (.traverse kind) = some w') :
    Counting compare w kind w' := by
  have undisturbed : Undisturbed w (.traverse kind) :=
    ⟨(fun impossible => by cases impossible), (fun combiner impossible => by cases impossible)⟩
  obtain ⟨sound, effect⟩ := step_effect stepped
  simp only [World.step, sound, Option.isSome_none, Bool.false_eq_true, if_false] at stepped
  obtain ⟨impl, locked, rfl⟩ := Option.map_eq_some_iff.mp stepped
  obtain ⟨free, present⟩ := lockImpl_some locked
  have bounds : traversalBounds (w.heap.connectionBodies impl) kind =
      ((w.heap.connectionBodies impl).list.begin, (w.heap.connectionBodies impl).list.past) := by
    rcases counts with same | same <;> rw [same] <;> rfl
  refine ⟨?_, (Since.refl w).step effect, ?_, w.newTraversal impl kind, ?_, rfl, ?_⟩
  · refine orderly.step order undisturbed ?_
    simp only [World.step, sound, Option.isSome_none, Bool.false_eq_true, if_false, traverse,
      locked, Option.map_some]
  · intro b todo locked' taken
    cases free.symm.trans taken
  · exact List.getElem?_concat_length
  · refine ⟨fun s state => ?_, Nat.zero_le _, fun gone => by cases gone⟩
    cases state
    refine ⟨[], (w.heap.connectionBodies impl).list.nodes, ?_⟩
    exact {
      nodes := rfl
      it := by rw [newTraversal, bounds]; rfl
      endIt := by rw [newTraversal, bounds]; rfl
      bodies := (currentBodies_of_present present).symm
      atMost := Nat.zero_le _
      atLeast := Nat.le_refl _ }

/-- What a call that has returned answers: `num_slots` its count, `empty` whether the
count is zero.  The call began in `o`, and `w` is a state after its end. -/
structure Census (o w : World σ) (tr : Traversal σ) : Prop where
  numSlots : tr.kind = .numSlots →
    o.currentBodies.countP w.live ≤ tr.count ∧ tr.count ≤ o.liveConnections.length
  exact : tr.kind = .numSlots → (∀ b ∈ o.currentBodies, o.live b = true → w.live b = true) →
    tr.count = o.liveConnections.length
  empty : tr.kind = .empty → tr.count = 0 → ∀ b ∈ o.currentBodies, w.live b = false
  occupied : tr.kind = .empty → tr.count ≠ 0 → o.liveConnections ≠ []

theorem CountTally.census (tally : CountTally o w tr) (returned : tr.localState = none) : Census o w tr := by
  have length : o.liveConnections.length = o.currentBodies.countP o.live := by
    rw [liveConnections, List.length_map, List.countP_eq_length_filter]
  have atLeast : tr.kind = .numSlots → o.currentBodies.countP w.live ≤ tr.count := by
    intro kind
    rcases tally.returned returned with answered | atLeast
    · simp [Traversal.answered, kind] at answered
    · exact atLeast
  refine ⟨fun kind => ⟨atLeast kind, length ▸ tally.atMost⟩, fun kind quiet => ?_,
    fun kind none => ?_, fun kind some nothing => ?_⟩
  · have all : o.currentBodies.countP o.live ≤ o.currentBodies.countP w.live :=
      List.countP_mono_left quiet
    have lower := atLeast kind
    have upper := tally.atMost
    omega
  · rcases tally.returned returned with answered | atLeast
    · simp [Traversal.answered, kind, none] at answered
    · have zero : o.currentBodies.countP w.live = 0 := by omega
      intro b member
      simpa using List.countP_eq_zero.mp zero b member
  · have upper := tally.atMost
    rw [← length, nothing] at upper
    exact some (Nat.le_zero.mp upper)

/-- The answers of `num_slots` and `empty`, in every run in which the signal stays. -/
theorem counting_census {combiner : σ.Combiner} {owners : ObjectId → Nat}
    {defaultCompare groupCompare : σ.Group → σ.Group → Bool} {kind : TraversalKind σ}
    {earlier later : List (Action σ)} (order : StrictWeak groupCompare)
    (agree : ∀ x y, defaultCompare x y = groupCompare x y) (counts : kind.Counts)
    (guarded : Runs.Guarded World.step Undisturbed
      (World.construct combiner defaultCompare groupCompare owners)
      (earlier ++ .traverse kind :: later))
    (before : Runs.run World.step (World.construct combiner defaultCompare groupCompare owners)
      earlier = some w)
    (ran : Runs.run World.step w (.traverse kind :: later) = some w') :
    ∃ tr, w'.traversals[w.traversals.length]? = some tr ∧ tr.kind = kind ∧
      (tr.localState = none → Census w w' tr) := by
  have same : defaultCompare = groupCompare := funext fun x => funext fun y => agree x y
  subst same
  obtain ⟨guardedEarlier, guardedCall⟩ := (Runs.guarded_append before).mp guarded
  have orderly := (construct_orderly combiner defaultCompare owners).run order guardedEarlier before
  obtain ⟨next, stepped, ranLater⟩ := Runs.run_cons ran
  have counting : Counting defaultCompare w kind w' := by
    refine Runs.run_invariant ?_ (orderly.starts_counting order counts stepped)
      (guardedCall.2 next stepped) ranLater
    intro s a s' counting undisturbed stepped
    exact counting.step order counts orderly.below undisturbed stepped
  obtain ⟨tr, found, kind', tally⟩ := counting.tally
  exact ⟨tr, found, kind', tally.census⟩

end World

/-- Two slots are counted while the second is disconnected behind the back of the call. -/
def countTwoSlots : List (Action natSignal) :=
  [.traverse .numSlots, .advance 0, .section, .disconnect 1, .advance 0, .section, .advance 0]

def connectTwoSlots : List (Action natSignal) :=
  [connectBack 10, .section, connectBack 11, .section, .section]

theorem countTwoSlots_census :
    ∃ (w w' : World natSignal) (tr : Traversal natSignal),
      Runs.run World.step natStart connectTwoSlots = some w ∧
      Runs.run World.step w countTwoSlots = some w' ∧ w'.traversals[0]? = some tr ∧
      tr.count = 1 ∧ World.Census w w' tr := by
  have ends : ((Runs.run World.step natStart connectTwoSlots).bind fun w =>
      (Runs.run World.step w countTwoSlots).map fun w' =>
        (w.traversals.length, w'.traversals.map fun tr => (tr.count, tr.localState.isNone))) =
      some (0, [(1, true)]) := by decide +kernel
  obtain ⟨w, before, rest⟩ := Option.bind_eq_some_iff.mp ends
  obtain ⟨w', ran, facts⟩ := Option.map_eq_some_iff.mp rest
  have none : w.traversals.length = 0 := congrArg Prod.fst facts
  have guarded : Runs.Guarded World.step World.Undisturbed natStart
      (connectTwoSlots ++ countTwoSlots) := by
    apply World.Undisturbed.of_forall
    · simp [connectTwoSlots, countTwoSlots, connectBack]
    · simp [connectTwoSlots, countTwoSlots, connectBack]
  obtain ⟨tr, found, _, census⟩ := World.counting_census natLess_strictWeak (fun _ _ => rfl)
    (.inl rfl) guarded before ran
  rw [none] at found
  have single : (tr.count, tr.localState.isNone) = (1, true) := by
    have mapped := congrArg (fun l => l[0]?) (congrArg Prod.snd facts)
    simpa [found] using mapped
  refine ⟨w, w', tr, before, ran, found, congrArg Prod.fst single, census ?_⟩
  simpa using congrArg Prod.snd single

end Signals2
