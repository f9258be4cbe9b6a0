/-
The order in which slots are called.  Each connection keeps the place that its group,
the end at which it was made and the moment of its connection give it: nothing that
happens to the list, or to the other connections, changes the order of two of them.
-/

import Mathlib.Data.List.Induction
import Signals2.GroupComparison

namespace Signals2

open LinkedLists OrderedInsertion

variable {σ : SignalTemplate}

/-- What a connection asks for. -/
structure Placement (σ : SignalTemplate) where
  groupKey : GroupKey σ.Group
  position : ConnectPosition

namespace Placement

/-- A connection with this number is called before another one.  In one group those made
at the front come first, the latest of them before all; those made at the back follow. -/
def before (compare : σ.Group → σ.Group → Bool) (b c : BodyId) (p q : Placement σ) : Bool :=
  if groupKeyLess compare p.groupKey q.groupKey then true
  else if groupKeyLess compare q.groupKey p.groupKey then false
  else
    match p.position, q.position with
    | .atFront, .atFront => c < b
    | .atFront, .atBack => true
    | .atBack, .atFront => false
    | .atBack, .atBack => b < c

variable {compare : σ.Group → σ.Group → Bool} {b c : BodyId} {p q : Placement σ}

theorem before_asymm (order : StrictWeak compare) (first : before compare b c p q = true) :
    before compare c b q p = false := by
  have weak := groupKeyLess_strictWeak order
  unfold before at first ⊢
  cases less : groupKeyLess compare p.groupKey q.groupKey with
  | true => simp [weak.not_back less]
  | false =>
      cases greater : groupKeyLess compare q.groupKey p.groupKey with
      | true => simp [less, greater] at first
      | false =>
          simp only [less, greater, Bool.false_eq_true, if_false] at first ⊢
          cases here : p.position with
          | atFront =>
              cases there : q.position with
              | atFront =>
                  rw [here, there] at first
                  simp only [decide_eq_true_eq, decide_eq_false_iff_not] at first ⊢
                  exact Nat.lt_asymm first
              | atBack => rfl
          | atBack =>
              cases there : q.position with
              | atFront =>
                  rw [here, there] at first
                  cases first
              | atBack =>
                  rw [here, there] at first
                  simp only [decide_eq_true_eq, decide_eq_false_iff_not] at first ⊢
                  exact Nat.lt_asymm first

/-- A new connection comes behind those that are prior to it. -/
theorem before_new (order : StrictWeak compare) (earlier : b < c)
    (prior : LiveConnection.prior compare q.groupKey q.position p.groupKey = true) :
    before compare b c p q = true := by
  have weak := groupKeyLess_strictWeak order
  unfold before
  cases less : groupKeyLess compare p.groupKey q.groupKey with
  | true => rfl
  | false =>
      cases position : q.position with
      | atFront =>
          rw [position, LiveConnection.prior, less] at prior
          cases prior
      | atBack =>
          have notGreater : groupKeyLess compare q.groupKey p.groupKey = false := by
            simpa [LiveConnection.prior, position] using prior
          cases p.position <;> simp [notGreater, earlier]

/-- It comes before the others. -/
theorem new_before (order : StrictWeak compare) (earlier : b < c)
    (behind : LiveConnection.prior compare q.groupKey q.position p.groupKey = false) :
    before compare c b q p = true := by
  have weak := groupKeyLess_strictWeak order
  unfold before
  cases less : groupKeyLess compare q.groupKey p.groupKey with
  | true => rfl
  | false =>
      cases position : q.position with
      | atBack =>
          rw [position, LiveConnection.prior, less] at behind
          cases behind
      | atFront =>
          have notGreater : groupKeyLess compare p.groupKey q.groupKey = false := by
            simpa [LiveConnection.prior, position] using behind
          cases p.position <;> simp [notGreater, earlier]

end Placement

/-- What the connection with this number has asked for. -/
def asked (made : List (LiveEvent σ)) (b : BodyId) : Option (Placement σ) :=
  match made[b]? with
  | some (.connect connection position) => some { groupKey := connection.groupKey, position }
  | _ => none

/-- Both connections have been made, and the first is called before the second. -/
def Precedes (compare : σ.Group → σ.Group → Bool) (made : List (LiveEvent σ)) (b c : BodyId) :
    Prop :=
  ∃ p q, asked made b = some p ∧ asked made c = some q ∧ Placement.before compare b c p q = true

/-- Connections, numbered as they were made. -/
def Numbered (made : List (LiveEvent σ)) : Prop :=
  ∀ (n : Nat) event, made[n]? = some event →
    ∃ (connection : LiveConnection σ) (position : ConnectPosition),
      event = .connect connection position ∧ connection.body = n

section

variable {compare : σ.Group → σ.Group → Bool} {made new : List (LiveEvent σ)} {b c : BodyId}

theorem asked_append {p : Placement σ} (found : asked made b = some p) :
    asked (made ++ new) b = some p := by
  have inside : b < made.length := by
    by_contra outside
    have missing : made[b]? = none := List.getElem?_eq_none (Nat.le_of_not_lt outside)
    rw [asked, missing] at found
    cases found
  rw [asked, List.getElem?_append_left inside]
  exact found

theorem asked_last (connection : LiveConnection σ) (position : ConnectPosition) :
    asked (made ++ [.connect connection position]) made.length =
      some { groupKey := connection.groupKey, position } := by
  rw [asked, List.getElem?_concat_length]

theorem Precedes.more (precedes : Precedes compare made b c) :
    Precedes compare (made ++ new) b c := by
  obtain ⟨p, q, first, second, ordered⟩ := precedes
  exact ⟨p, q, asked_append first, asked_append second, ordered⟩

theorem Precedes.asymm (order : StrictWeak compare) (precedes : Precedes compare made b c) :
    ¬ Precedes compare made c b := by
  intro back
  obtain ⟨p, q, first, second, ordered⟩ := precedes
  obtain ⟨q', p', second', first', reversed⟩ := back
  cases first.symm.trans first'
  cases second.symm.trans second'
  rw [Placement.before_asymm order ordered] at reversed
  cases reversed

theorem Numbered.earlier (numbered : Numbered (made ++ new)) : Numbered made := by
  intro n event found
  have inside := (List.getElem?_eq_some_iff.mp found).1
  apply numbered n event
  rw [List.getElem?_append_left inside]
  exact found

/-- A sequence of connections that were made, each at its place among the others. -/
structure Arranged (compare : σ.Group → σ.Group → Bool) (made : List (LiveEvent σ))
    (all : List (LiveConnection σ)) : Prop where
  ordered : LiveConnection.Ordered compare all
  known : ∀ connection ∈ all, connection.body < made.length ∧
    ∃ p, asked made connection.body = some p ∧ p.groupKey = connection.groupKey
  pairwise : all.Pairwise fun x y => Precedes compare made x.body y.body

/-- A connection more finds its place, and the others keep theirs. -/
theorem Arranged.insert (order : StrictWeak compare) {all : List (LiveConnection σ)}
    (arranged : Arranged compare made all) {connection : LiveConnection σ}
    {position : ConnectPosition} (number : connection.body = made.length) :
    Arranged compare (made ++ [.connect connection position])
      (LiveConnection.apply compare all (.connect connection position)) := by
  have last : asked (made ++ [.connect connection position]) connection.body =
      some { groupKey := connection.groupKey, position } := by
    rw [number]
    exact asked_last connection position
  have old : ∀ other ∈ all, ∃ p,
      asked (made ++ [.connect connection position]) other.body = some p ∧
        p.groupKey = other.groupKey := by
    intro other member
    obtain ⟨p, found, key⟩ := (arranged.known other member).2
    exact ⟨p, asked_append found, key⟩
  constructor
  · exact arranged.ordered.apply order _
  · intro other member
    rw [List.length_append, List.length_singleton]
    rcases mem_insertWhere member with rfl | earlier
    · constructor
      · rw [number]
        exact Nat.lt_succ_self _
      · exact ⟨_, last, rfl⟩
    · constructor
      · exact Nat.lt_succ_of_lt (arranged.known other earlier).1
      · exact old other earlier
  · apply (LiveConnection.prior_cut order arranged.ordered _ _).pairwise_insertWhere
    · exact arranged.pairwise.imp fun precedes => precedes.more
    · intro other member prior
      obtain ⟨p, found, key⟩ := old other member
      rw [← key] at prior
      have earlier := number ▸ (arranged.known other member).1
      exact ⟨p, _, found, last, Placement.before_new order earlier prior⟩
    · intro other member behind
      obtain ⟨p, found, key⟩ := old other member
      rw [← key] at behind
      have earlier := number ▸ (arranged.known other member).1
      exact ⟨_, p, last, found, Placement.new_before order earlier behind⟩

theorem Numbered.arranged (order : StrictWeak compare) (numbered : Numbered made) :
    Arranged compare made (World.placed compare made) := by
  induction made using List.reverseRecOn with
  | nil =>
      constructor
      · exact List.Pairwise.nil
      · intro connection member
        cases member
      · exact List.Pairwise.nil
  | append_singleton earlier event ih =>
      obtain ⟨connection, position, rfl, number⟩ :=
        numbered earlier.length event List.getElem?_concat_length
      rw [World.placed, List.foldl_append]
      exact (ih numbered.earlier).insert order number

end

namespace World

variable {w w' : World σ} {a : Action σ} {compare : σ.Group → σ.Group → Bool}

/-- So many connections have been made, numbered one after the other. -/
structure Counts (made : List (LiveEvent σ)) (w : World σ) : Prop where
  counted : made.length = w.nextBody
  numbered : Numbered made

theorem Counts.step {made : List (LiveEvent σ)} (counts : Counts made w)
    (stepped : w.step a = some w') : Counts (made ++ w.placements a) w' := by
  rcases (step_effect stepped).2.ages with ages | ⟨rfl, arguments, connects, _⟩
  · by_cases connecting : a = .section ∧ ∃ arguments, w.Connects arguments
    · obtain ⟨rfl, arguments, connects⟩ := connecting
      obtain ⟨impl, it, _, _, _, _, result⟩ := connects.stepped stepped
      have more : w'.nextBody = w.nextBody + 1 := by
        rw [result]
        rfl
      rw [ages.nextBody] at more
      exact absurd more (Nat.ne_of_lt (Nat.lt_succ_self _))
    · rw [placements_nil fun acting arguments connects => connecting ⟨acting, arguments, connects⟩,
        List.append_nil]
      exact ⟨counts.counted.trans ages.nextBody.symm, counts.numbered⟩
  · obtain ⟨impl, it, _, _, _, _, result⟩ := connects.stepped stepped
    rw [placements_connects connects]
    constructor
    · rw [List.length_append, counts.counted, result]
      rfl
    · intro n event found
      by_cases inside : n < made.length
      · rw [List.getElem?_append_left inside] at found
        exact counts.numbered n event found
      · rw [List.getElem?_append_right (Nat.le_of_not_lt inside)] at found
        obtain ⟨first, same⟩ := List.getElem?_eq_some_iff.mp found
        have last : n - made.length < 1 := first
        have number : n = made.length := by omega
        subst number
        simp only [Nat.sub_self, List.getElem_cons_zero] at same
        exact ⟨_, _, same.symm, counts.counted.symm⟩

/-- Calls along a sequence are in any order that the sequence is in. -/
theorem CalledAlong.pairwise {bodies called : List BodyId} {Related : BodyId → BodyId → Prop}
    (along : CalledAlong bodies called) (related : bodies.Pairwise Related) :
    called.Pairwise fun b c => b = c ∨ Related b c := by
  obtain ⟨visits, visited, rfl⟩ := along
  have ordered : (visits.map Visit.body).Pairwise Related := related.sublist visited
  apply List.pairwise_flatMap.mpr
  constructor
  · intro visit _
    exact List.pairwise_replicate.mpr (.inr (.inl rfl))
  · apply (List.pairwise_map.mp ordered).imp
    intro earlier later precedes b first c second
    rw [List.eq_of_mem_replicate first, List.eq_of_mem_replicate second]
    exact .inr precedes

/-- Whatever goes on while an invocation runs, it calls its slots in the order of their
placements, and of two different connections only one can precede the other. -/
theorem calling_order {combiner : σ.Combiner} {owners : ObjectId → Nat}
    {defaultCompare groupCompare : σ.Group → σ.Group → Bool} {actions : List (Action σ)}
    (order : StrictWeak groupCompare) (agree : ∀ x y, defaultCompare x y = groupCompare x y)
    (guarded : Runs.Guarded World.step Undisturbed
      (World.construct combiner defaultCompare groupCompare owners) actions)
    (ran : Runs.run World.step (World.construct combiner defaultCompare groupCompare owners)
      actions = some w) (i : InvocationId) :
    let start := World.construct combiner defaultCompare groupCompare owners
    let made := Runs.outputs World.step placements start actions
    Counts made w ∧
      (calls (Runs.outputs World.step (callEvents i) start actions)).Pairwise
        (fun b c => b = c ∨ Precedes groupCompare made b c) ∧
      ∀ b c, Precedes groupCompare made b c → ¬ Precedes groupCompare made c b := by
  have same : defaultCompare = groupCompare := funext fun x => funext fun y => agree x y
  subst same
  intro start made
  have counts : Counts made w := by
    have began : Counts [] start := ⟨rfl, fun n event found => by cases found⟩
    have keeps : ∀ (made : List (LiveEvent σ)) (s : World σ) (a : Action σ) (next : World σ),
        Counts made s → Undisturbed s a → s.step a = some next →
        Counts (made ++ s.placements a) next :=
      fun _ _ _ _ counts _ stepped => counts.step stepped
    exact Runs.run_observed keeps began guarded ran
  have arranged := counts.numbered.arranged order
  constructor
  · exact counts
  · constructor
    · have along := (ruled_of_agree order guarded ran).along i
      exact along.pairwise (List.pairwise_map.mpr arranged.pairwise)
    · intro b c precedes
      exact precedes.asymm order

end World

/-- Five connections are called; the second slot throws, and the combiner calls it again. -/
def callFiveSlots : List (Action natSignal) :=
  [connectGroup 2 10 .atBack, .section, connectGroup 1 11 .atBack, .section, .section,
    connectGroup 2 12 .atFront, .section, .section, .section, connectBack 13, .section, .section,
    .section, .connect { group := none, slot := .ofFunctor 14 [], position := .atFront }, .section,
    .section, .section, .invoke, .section, .section, .lockNext 0, .section, .dereference 0,
    .slotReturns 0 0, .increment 0, .lockNext 0, .section, .dereference 0, .slotThrows 0 false,
    .dereference 0, .slotReturns 0 0, .increment 0, .lockNext 0, .section, .dereference 0,
    .slotReturns 0 0, .increment 0, .lockNext 0, .section, .dereference 0, .slotReturns 0 0,
    .increment 0, .lockNext 0, .section, .dereference 0, .slotReturns 0 0, .increment 0,
    .reachEnd 0]

theorem callFiveSlots_order :
    calls (Runs.outputs World.step (World.callEvents 0) natStart callFiveSlots) =
        [4, 1, 1, 2, 0, 3] ∧
      (calls (Runs.outputs World.step (World.callEvents 0) natStart callFiveSlots)).Pairwise
        fun b c => b = c ∨ Precedes (fun x y : Nat => decide (x < y))
          (Runs.outputs World.step World.placements natStart callFiveSlots) b c := by
  have called : calls (Runs.outputs World.step (World.callEvents 0) natStart callFiveSlots) =
      [4, 1, 1, 2, 0, 3] := by decide +kernel
  have ends : (Runs.run World.step natStart callFiveSlots).isSome = true := by decide +kernel
  obtain ⟨w, ran⟩ := Option.isSome_iff_exists.mp ends
  have guarded : Runs.Guarded World.step World.Undisturbed natStart callFiveSlots := by
    apply World.Undisturbed.of_forall
    · simp [callFiveSlots, connectGroup, connectBack]
    · simp [callFiveSlots, connectGroup, connectBack]
  exact ⟨called,
    (World.calling_order natLess_strictWeak (fun _ _ => rfl) guarded ran 0).2.1⟩

end Signals2
