/-
What `connection::connected` answers.  The call looks at one tracked object after the
other while their owners let go, so its answer is about the time of the call: yes only
if the connection was live when the call began, no only if it is over, and then no
later call says yes again.
-/

import Signals2.ListCounts
import Signals2.Blockers

namespace Signals2

variable {σ : SignalTemplate}

namespace World

variable {o w w' u : World σ} {a : Action σ} {b : BodyId}

/-! ### Steps that answer -/

/-- What a step adds to the answers. -/
inductive Answering (w : World σ) : Action σ → World σ → Prop
  | quiet {a : Action σ} {w' : World σ} (same : w'.returned = w.returned) : Answering w a w'
  | refuse (b : BodyId) (gone : w.bodyAlive b = false) :
      Answering w (.connected b) { w with returned := (b, false) :: w.returned }
  | answer (b : BodyId) (todo : List VoidWeakPtr) (locked : Option (Option ObjectId))
      (u : World σ) (critical : w.critical = some (.grabTrackedObjects .connected b todo locked))
      (ended : Ended w b todo locked u) : Answering w .section (u.finishGrab .connected b)

theorem finishGrab_returned {client : GrabClient} (other : client ≠ .connected) :
    (w.finishGrab client b).returned = w.returned := by
  cases client with
  | connected => exact absurd rfl other
  | traversal t =>
      unfold finishGrab
      dsimp only
      split <;> rfl
  | iterator i =>
      unfold finishGrab
      dsimp only
      split
      · rfl
      · split <;> rfl

theorem insertLocked_returned (client : GrabClient) (locked : Option ObjectId) :
    (w.insertLocked client locked).returned = w.returned := by
  unfold insertLocked
  split
  · split <;> rfl
  · rfl

theorem grabStep_answering {client : GrabClient} {todo : List VoidWeakPtr}
    {locked : Option (Option ObjectId)}
    (critical : w.critical = some (.grabTrackedObjects client b todo locked)) :
    Answering w .section (w.grabStep client b todo locked) := by
  have refused : ∀ u, Ended w b todo locked u → u.returned = w.returned →
      Answering w .section (u.finishGrab client b) := by
    intro u ended same
    by_cases mine : client = .connected
    · subst mine
      exact .answer b todo locked u critical ended
    · exact .quiet ((finishGrab_returned mine).trans same)
  cases todo with
  | nil => exact refused w (.grabbed locked) rfl
  | cons p rest =>
      cases locked with
      | some found => exact .quiet (insertLocked_returned client found)
      | none =>
          simp only [grabStep]
          split
          · rename_i expired
            exact refused _ (.expired p rest expired) rfl
          · exact .quiet rfl

theorem checkExpired_returned (grabTracked : Bool) (b : BodyId) :
    (w.checkExpired grabTracked b).returned = w.returned := by
  obtain ⟨store, same⟩ := checkExpired_store w grabTracked b
  rw [same]

theorem finishCleanup_returned (impl : SignalImpl) (it : LinkedLists.Iterator)
    (after : AfterCleanup σ) : (w.finishCleanup impl it after).returned = w.returned := by
  unfold finishCleanup
  cases after with
  | connect arguments => rfl
  | invoke => rfl
  | forceCleanup i =>
      dsimp only
      split <;> rfl

theorem cleanupStep_returned (it : LinkedLists.Iterator) (i count : Nat) (grabTracked : Bool)
    (after : AfterCleanup σ) : (w.cleanupStep it i count grabTracked after).returned =
      w.returned := by
  unfold cleanupStep
  split
  · rfl
  · dsimp only
    split
    · split
      · rfl
      · have checked := checkExpired_returned (w := w) grabTracked ‹BodyId›
        split
        · split <;> exact checked
        · exact checked
    · exact finishCleanup_returned _ _ _

theorem sectionStep_answering (stepped : w.sectionStep = some w') :
    Answering w .section w' := by
  unfold sectionStep at stepped
  split at stepped
  · cases stepped
  · rename_i client b todo locked critical
    cases stepped
    exact grabStep_answering critical
  · cases stepped
    apply Answering.quiet
    unfold containsStep
    dsimp only
    split <;> split <;> rfl
  · cases stepped
    exact .quiet (cleanupStep_returned _ _ _ _ _)

theorem connected_answering (stepped : w.connected b = some w') :
    Answering w (.connected b) w' := by
  unfold World.connected at stepped
  split at stepped
  · cases stepped
  · split at stepped
    · cases stepped
      exact .quiet rfl
    · rename_i gone
      cases stepped
      exact .refuse b (by simpa using gone)

theorem janitor_returned {i : InvocationId} (stepped : w.janitor i = some w') :
    w'.returned = w.returned := by
  unfold janitor at stepped
  split at stepped
  · cases stepped
  · split at stepped
    · dsimp only at stepped
      split at stepped
      · split at stepped
        · cases stepped
        · split at stepped
          · cases stepped
            rfl
          · split at stepped
            · cases stepped
              rfl
            · split at stepped
              · cases stepped
              · split at stepped <;> cases stepped <;> rfl
      · cases stepped
        rfl
    · cases stepped

theorem advance_returned {t : TraversalId} (stepped : w.advance t = some w') :
    w'.returned = w.returned := by
  unfold advance at stepped
  split at stepped
  · cases stepped
  · split at stepped
    · cases stepped
    · split at stepped
      · cases stepped
        rfl
      · split at stepped
        · cases stepped
        · split at stepped
          · cases stepped
            rfl
          · split at stepped <;> cases stepped <;> try rfl
            unfold doDisconnect
            split
            · rfl
            · split
              · rfl
              · split <;> first | rfl | (split <;> rfl)

/-- Only calls of `connected` and the critical sections that they start give answers. -/
theorem step_answering (stepped : w.step a = some w') : Answering w a w' := by
  unfold step at stepped
  split at stepped
  · cases stepped
  · cases a with
    | «section» => exact sectionStep_answering stepped
    | connected b => exact connected_answering stepped
    | connect arguments =>
        obtain ⟨impl, _, rfl⟩ := Option.map_eq_some_iff.mp stepped
        apply Answering.quiet
        unfold nolockForceUniqueConnectionList
        split <;> rfl
    | setCombiner combiner =>
        obtain ⟨impl, _, rfl⟩ := Option.map_eq_some_iff.mp stepped
        split <;> exact .quiet rfl
    | invoke =>
        obtain ⟨impl, _, rfl⟩ := Option.map_eq_some_iff.mp stepped
        split <;> exact .quiet rfl
    | traverse kind =>
        obtain ⟨impl, _, rfl⟩ := Option.map_eq_some_iff.mp stepped
        exact .quiet rfl
    | destroy =>
        obtain ⟨impl, _, rfl⟩ := Option.map_eq_some_iff.mp stepped
        exact .quiet rfl
    | disconnect b =>
        dsimp only [World.disconnect] at stepped
        repeat' split at stepped
        all_goals cases stepped
        all_goals exact .quiet rfl
    | promote b =>
        dsimp only [World.promote] at stepped
        split at stepped <;> cases stepped
        exact .quiet rfl
    | clearTracked i =>
        dsimp only [clearTracked] at stepped
        repeat' split at stepped
        all_goals cases stepped
        exact .quiet rfl
    | lockNext i =>
        dsimp only [lockNext] at stepped
        repeat' split at stepped
        all_goals cases stepped
        all_goals exact .quiet rfl
    | reachEnd i =>
        dsimp only [reachEnd] at stepped
        repeat' split at stepped
        all_goals cases stepped
        all_goals exact .quiet rfl
    | dereference i =>
        dsimp only [dereference] at stepped
        repeat' split at stepped
        all_goals cases stepped
        all_goals exact .quiet rfl
    | slotReturns i result =>
        dsimp only [slotReturns] at stepped
        repeat' split at stepped
        all_goals cases stepped
        exact .quiet rfl
    | slotThrows i expiredSlot =>
        dsimp only [slotThrows] at stepped
        repeat' split at stepped
        all_goals cases stepped
        all_goals exact .quiet rfl
    | increment i =>
        dsimp only [increment] at stepped
        repeat' split at stepped
        all_goals cases stepped
        all_goals exact .quiet rfl
    | finish i =>
        dsimp only [finish] at stepped
        repeat' split at stepped
        all_goals cases stepped
        exact .quiet rfl
    | janitor i => exact .quiet (janitor_returned stepped)
    | destroyCache i =>
        dsimp only [destroyCache] at stepped
        repeat' split at stepped
        all_goals cases stepped
        all_goals exact .quiet rfl
    | releaseState i =>
        dsimp only [releaseState] at stepped
        repeat' split at stepped
        all_goals cases stepped
        exact .quiet rfl
    | advance t => exact .quiet (advance_returned stepped)
    | release n =>
        dsimp only [release] at stepped
        split at stepped <;> cases stepped
        exact .quiet rfl
    | acquire x =>
        dsimp only [acquire] at stepped
        split at stepped <;> cases stepped
        exact .quiet rfl
    | drop x =>
        dsimp only [drop] at stepped
        split at stepped <;> cases stepped
        exact .quiet rfl
    | constructBlock b =>
        cases stepped
        exact .quiet rfl
    | copyBlock k =>
        obtain ⟨original, _, rfl⟩ := Option.map_eq_some_iff.mp stepped
        exact .quiet rfl
    | block k =>
        obtain ⟨members, _, how⟩ := block_cases stepped
        cases how <;> exact .quiet rfl
    | unblock k =>
        obtain ⟨members, _, rfl⟩ := Option.map_eq_some_iff.mp stepped
        exact .quiet rfl

/-! ### Connections that are over -/

/-- Operations of blocks neither keep bodies nor let go of them. -/
theorem step_of_block (mine : a.ofBlock = true) (stepped : w.step a = some w') :
    w'.trash = w.trash ∧ ∀ b, w'.bodyAlive b = w.bodyAlive b := by
  unfold step at stepped
  split at stepped
  · cases stepped
  · cases a with
    | constructBlock b =>
        cases stepped
        exact ⟨rfl, fun _ => bodyAlive_congr rfl rfl rfl rfl rfl _⟩
    | copyBlock k =>
        obtain ⟨original, _, rfl⟩ := Option.map_eq_some_iff.mp stepped
        exact ⟨rfl, fun _ => bodyAlive_congr rfl rfl rfl rfl rfl _⟩
    | block k =>
        obtain ⟨members, _, how⟩ := block_cases stepped
        refine ⟨?_, how.alive⟩
        cases how <;> rfl
    | unblock k =>
        obtain ⟨members, _, rfl⟩ := Option.map_eq_some_iff.mp stepped
        exact ⟨rfl, fun _ => bodyAlive_congr rfl rfl rfl rfl rfl _⟩
    | _ => cases mine

/-- Whatever keeps a body keeps one that a connect has made. -/
structure Made (w : World σ) : Prop where
  listed : ∀ b, Listed w.heap b → b < w.nextBody
  inSection : ∀ b, w.sectionBody = some b → b < w.nextBody
  inTrash : ∀ b, Leftover.body b ∈ w.trash → b < w.nextBody

theorem Made.of_alive (made : w.Made) (alive : w.bodyAlive b = true) : b < w.nextBody := by
  rcases bodyAlive_iff.mp alive with ⟨s, _, member⟩ | kept | left
  · exact made.listed b ⟨_, member⟩
  · exact made.inSection b kept
  · exact made.inTrash b left

theorem Made.step (made : w.Made) (stepped : w.step a = some w') : w'.Made := by
  have effect := (step_effect stepped).2
  refine ⟨effect.listed_below made.listed, fun b kept => ?_, fun b left => ?_⟩
  · exact Nat.lt_of_lt_of_le (made.of_alive (effect.sectionBody kept)) effect.nextBody_le
  · apply Nat.lt_of_lt_of_le _ effect.nextBody_le
    cases mine : a.ofBlock with
    | false =>
        rcases (step_blocksKept mine stepped).trash b left with old | kept
        · exact made.inTrash b old
        · exact made.of_alive kept
    | true =>
        rw [(step_of_block mine stepped).1] at left
        exact made.inTrash b left

theorem Made.run {actions : List (Action σ)} (made : w.Made)
    (ran : Runs.run World.step w actions = some w') : w'.Made :=
  Runs.run_invariant (fun _ _ _ made _ stepped => made.step stepped) made
    (Runs.Guarded.of_forall fun _ _ _ => trivial) ran

/-- The connection is disconnected, or nothing keeps its body any more. -/
structure Over (w : World σ) (b : BodyId) : Prop where
  below : b < w.nextBody
  gone : (w.bodies b).connected = true → w.bodyAlive b = false

theorem Over.step (refused : w.Over b) (stepped : w.step a = some w') : w'.Over b := by
  have effect := (step_effect stepped).2
  refine ⟨Nat.lt_of_lt_of_le refused.below effect.nextBody_le, fun connected => ?_⟩
  have gone := refused.gone (effect.connected_kept refused.below connected)
  cases mine : a.ofBlock with
  | true => exact ((step_of_block mine stepped).2 b).trans gone
  | false =>
      cases alive : w'.bodyAlive b with
      | false => rfl
      | true =>
          rcases step_alive mine stepped alive with before | new
          · rw [gone] at before
            cases before
          · exact absurd new (Nat.ne_of_lt refused.below)

/-! ### All answers together -/

/-- `connected` is asked of connections that have been made. -/
def AsksMade (w : World σ) (a : Action σ) : Prop := ∀ b, a = .connected b → b < w.nextBody

structure Answered (w : World σ) : Prop where
  refused : ∀ b, (b, false) ∈ w.returned → w.Over b
  -- the newest answer comes first
  steady : w.returned.Pairwise fun newer older =>
    newer.1 = older.1 → older.2 = false → newer.2 = false

theorem Answered.step (answered : w.Answered) (made : w.Made) (asks : AsksMade w a)
    (stepped : w.step a = some w') : w'.Answered := by
  have later : ∀ b, (b, false) ∈ w.returned → w'.Over b := fun b no =>
    (answered.refused b no).step stepped
  have effect := (step_effect stepped).2
  have nextBody := effect.nextBody_le
  cases step_answering stepped with
  | quiet same => exact ⟨fun b no => later b (same ▸ no), same ▸ answered.steady⟩
  | refuse b gone =>
      constructor
      · intro c no
        rcases List.mem_cons.mp no with new | old
        · cases new
          exact ⟨asks b rfl, fun _ => (bodyAlive_congr rfl rfl rfl rfl rfl b).trans gone⟩
        · exact later c old
      · exact List.pairwise_cons.mpr ⟨fun _ _ _ _ => rfl, answered.steady⟩
  | answer b todo locked u critical ended =>
      have kept : w.sectionBody = some b := by rw [sectionBody, critical]
      have returned : (u.finishGrab .connected b).returned =
          (b, (u.bodies b).connected) :: w.returned := by
        obtain ⟨store, rfl⟩ := ended.store
        rfl
      constructor
      · intro c no
        rw [returned] at no
        rcases List.mem_cons.mp no with new | old
        · obtain ⟨rfl, lost⟩ := Prod.mk.inj new
          refine ⟨Nat.lt_of_lt_of_le (made.inSection c kept) nextBody, fun connected => ?_⟩
          have still : (u.bodies c).connected = true := connected
          rw [← lost] at still
          cases still
        · exact later c old
      · rw [returned]
        refine List.pairwise_cons.mpr ⟨?_, answered.steady⟩
        rintro ⟨c, answer⟩ old rfl rfl
        cases connected : (u.bodies b).connected with
        | false => rfl
        | true =>
            have before := (ended.ages.bodies b).connected connected
            have gone := (answered.refused b old).gone before
            rw [bodyAlive_iff.mpr (.inr (.inl kept))] at gone
            cases gone

/-! ### One call -/

/-- A call that has begun in the state `o` holds the mutex until it answers. -/
inductive Asked (o : World σ) (b : BodyId) (w : World σ) : Prop
  | pending (todo : List VoidWeakPtr) (locked : Option (Option ObjectId))
      (critical : w.critical = some (.grabTrackedObjects .connected b todo locked))
      (returned : w.returned = o.returned)
  | answered (answer : Bool) (newer : List (BodyId × Bool))
      (returned : w.returned = newer ++ (b, answer) :: o.returned)
      (live : answer = true → o.live b = true)

/-- What every run keeps of the call. -/
structure Asking (o : World σ) (b : BodyId) (w : World σ) : Prop where
  made : w.Made
  counted : w.Counted
  since : Since o w
  witnessed : Witnessed o .connected w
  asked : Asked o b w

theorem Asking.answer (asking : Asking o b w) (below : b < o.nextBody) {todo : List VoidWeakPtr}
    {locked : Option (Option ObjectId)}
    (critical : w.critical = some (.grabTrackedObjects .connected b todo locked))
    (returned : w.returned = o.returned) (ended : Ended w b todo locked u) :
    Asked o b (u.finishGrab .connected b) := by
  refine .answered (u.bodies b).connected [] ?_ fun connected => ?_
  · rw [← returned]
    obtain ⟨store, rfl⟩ := ended.store
    rfl
  · exact asking.witnessed.live asking.since asking.counted below critical ended connected

theorem Asking.step (asking : Asking o b w) (below : b < o.nextBody)
    (stepped : w.step a = some w') : Asking o b w' := by
  obtain ⟨sound, effect⟩ := step_effect stepped
  refine ⟨asking.made.step stepped, asking.counted.step effect, asking.since.step effect,
    asking.witnessed.step asking.since (fun c alive => asking.made.of_alive alive) effect, ?_⟩
  cases asking.asked with
  | pending todo locked critical returned =>
      by_cases mine : a = .section
      · subst mine
        simp only [World.step, sound, Option.isSome_none, Bool.false_eq_true, if_false, sectionStep,
          critical, Option.some.injEq] at stepped
        subst stepped
        cases todo with
        | nil => exact asking.answer below critical returned (.grabbed locked)
        | cons p rest =>
            cases locked with
            | some found =>
                exact .pending rest none rfl ((insertLocked_returned _ found).trans returned)
            | none =>
                simp only [grabStep]
                split
                · rename_i expired
                  exact asking.answer below critical returned (.expired p rest expired)
                · exact .pending _ _ rfl returned
      · have taken : w.critical ≠ none := by
          rw [critical]
          exact Option.some_ne_none _
        have kept := (effect.excludes taken mine).1
        cases step_answering stepped with
        | quiet same => exact .pending todo locked (kept.trans critical) (same.trans returned)
        | refuse c gone =>
            simp [World.step, World.connected, critical] at stepped
        | answer c todo' locked' u critical' ended => exact absurd rfl mine
  | answered answer newer returned live =>
      cases step_answering stepped with
      | quiet same => exact .answered answer newer (same.trans returned) live
      | refuse c gone =>
          exact .answered answer ((c, false) :: newer) (congrArg (_ :: ·) returned) live
      | answer c todo locked u critical ended =>
          refine .answered answer ((c, (u.bodies c).connected) :: newer) ?_ live
          rw [List.cons_append, ← returned]
          obtain ⟨store, rfl⟩ := ended.store
          rfl

theorem Made.asks (made : w.Made) (counted : w.Counted)
    (stepped : w.step (.connected b) = some w') : Asking w b w' := by
  obtain ⟨sound, effect⟩ := step_effect stepped
  have free : w.critical = none := by
    cases critical : w.critical with
    | none => rfl
    | some taken => simp [World.step, World.connected, critical] at stepped
  refine ⟨made.step stepped, counted.step effect, (Since.refl w).step effect, ?_, ?_⟩
  · have before : Witnessed w .connected w := by
      intro c todo locked taken
      rw [free] at taken
      cases taken
    exact before.step (.refl w) (fun c alive => made.of_alive alive) effect
  · simp only [World.step, sound, Option.isSome_none, Bool.false_eq_true, if_false, World.connected,
      free] at stepped
    split at stepped
    · cases stepped
      exact .pending _ _ rfl rfl
    · cases stepped
      exact .answered false [] rfl (fun no => by cases no)

theorem Asking.run {final : World σ} {actions : List (Action σ)} (asking : Asking o b w)
    (below : b < o.nextBody) (ran : Runs.run World.step w actions = some final) :
    Asking o b final :=
  Runs.run_invariant (fun _ _ _ asking _ stepped => asking.step below stepped) asking
    (Runs.Guarded.of_forall fun _ _ _ => trivial) ran

theorem construct_made (combiner : σ.Combiner)
    (defaultCompare groupCompare : σ.Group → σ.Group → Bool) (owners : ObjectId → Nat) :
    (World.construct combiner defaultCompare groupCompare owners).Made where
  listed b listed := by
    obtain ⟨l, member⟩ := listed
    cases member
  inSection b kept := by cases kept
  inTrash b left := by cases left

/-- What every run keeps that asks only about connections that have been made. -/
structure Truthful (w : World σ) : Prop where
  made : w.Made
  counted : w.Counted
  answered : w.Answered

theorem Truthful.run {final : World σ} {actions : List (Action σ)} (truthful : w.Truthful)
    (guarded : Runs.Guarded World.step AsksMade w actions)
    (ran : Runs.run World.step w actions = some final) : final.Truthful :=
  Runs.run_invariant (fun _ _ _ truthful asks stepped =>
    ⟨truthful.made.step stepped, truthful.counted.step (step_effect stepped).2,
      truthful.answered.step truthful.made asks stepped⟩) truthful guarded ran

/-- In every run: a connection that was refused is over, and refused from then on; and a
call of `connected` holds the mutex until it answers, with yes only if the connection was
live when the call began, with no only if it is over. -/
theorem connected_answers {combiner : σ.Combiner}
    {defaultCompare groupCompare : σ.Group → σ.Group → Bool} {owners : ObjectId → Nat}
    {earlier later : List (Action σ)}
    (guarded : Runs.Guarded World.step AsksMade
      (World.construct combiner defaultCompare groupCompare owners)
      (earlier ++ .connected b :: later))
    (before : Runs.run World.step (World.construct combiner defaultCompare groupCompare owners)
      earlier = some w)
    (ran : Runs.run World.step w (.connected b :: later) = some w') :
    w'.Answered ∧
      ((∃ todo locked, w'.critical = some (.grabTrackedObjects .connected b todo locked)) ∨
        ∃ answer, w'.returned.reverse[w.returned.length]? = some (b, answer) ∧
          (answer = true → w.live b = true) ∧ (answer = false → w'.Over b)) := by
  obtain ⟨guardedEarlier, guardedCall⟩ := (Runs.guarded_append before).mp guarded
  have start : (World.construct combiner defaultCompare groupCompare owners).Truthful :=
    { made := construct_made combiner defaultCompare groupCompare owners
      counted := construct_counted combiner defaultCompare groupCompare owners
      answered :=
        { refused := fun b no => by cases no
          steady := .nil } }
  have truthful := start.run guardedEarlier before
  have answered := (truthful.run guardedCall ran).answered
  refine ⟨answered, ?_⟩
  have below : b < w.nextBody := guardedCall.1 b rfl
  obtain ⟨next, stepped, ranLater⟩ := Runs.run_cons ran
  have asking := (truthful.made.asks truthful.counted stepped).run below ranLater
  cases asking.asked with
  | pending todo locked critical returned => exact .inl ⟨todo, locked, critical⟩
  | answered answer newer returned live =>
      refine .inr ⟨answer, by simp [returned], live, fun no => answered.refused b ?_⟩
      rw [returned, ← no]
      exact List.mem_append_right newer List.mem_cons_self

end World

/-- A connection whose slot tracks an object is asked for, and the object is let go during
the call. -/
def askAndDrop : List (Action natSignal) := [.connected 0, .drop 7, .section]

def connectTracking : List (Action natSignal) :=
  [.connect { group := none, slot := .ofFunctor 10 [.boost 7], position := .atBack }, .section]

theorem askAndDrop_answers :
    ∃ w w' : World natSignal, Runs.run World.step ownedStart connectTracking = some w ∧
      Runs.run World.step w askAndDrop = some w' ∧ w'.Answered ∧
      w'.returned = [(0, false)] ∧ w'.Over 0 := by
  have ends : ((Runs.run World.step ownedStart connectTracking).bind fun w =>
      (Runs.run World.step w askAndDrop).map fun w' => (w.nextBody, w'.returned)) =
        some (1, [(0, false)]) := by decide +kernel
  obtain ⟨w, before, rest⟩ := Option.bind_eq_some_iff.mp ends
  obtain ⟨w', ran, facts⟩ := Option.map_eq_some_iff.mp rest
  obtain ⟨made, returned⟩ := Prod.mk.inj facts
  have connecting : Runs.Guarded World.step World.AsksMade ownedStart connectTracking := by
    refine .of_forall fun a member s b same => ?_
    subst same
    simp [connectTracking] at member
  have asking : Runs.Guarded World.step World.AsksMade w askAndDrop := by
    refine ⟨fun b same => ?_, fun next stepped => .of_forall fun a member s b same => ?_⟩
    · cases same
      rw [made]
      exact Nat.zero_lt_one
    · subst same
      simp at member
  have answered := (World.connected_answers
    ((Runs.guarded_append before).mpr ⟨connecting, asking⟩) before ran).1
  refine ⟨w, w', before, ran, answered, returned, answered.refused 0 ?_⟩
  rw [returned]
  exact List.mem_singleton_self _

end Signals2
