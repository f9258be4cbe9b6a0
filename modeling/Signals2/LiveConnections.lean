/-
What a signal is for: an ordered sequence of live connections.  A connect puts
one entry in its place, a disconnection and the end of a tracked object take
entries out, and nothing else happens to the sequence.  No list, no map, no dead
connection and no cleanup is mentioned here.
-/

import Signals2.World

namespace Signals2

open OrderedInsertion

variable {σ : SignalTemplate}

structure LiveConnection (σ : SignalTemplate) where
  body : BodyId
  groupKey : GroupKey σ.Group
  trackedObjects : List VoidWeakPtr

inductive LiveEvent (σ : SignalTemplate) where
  | connect (connection : LiveConnection σ) (position : ConnectPosition)
  | disconnect (b : BodyId)
  | expire (released : ObjectId → Bool)

namespace LiveConnection

/-- A new connection is placed behind a connection with this key. -/
def prior (compare : σ.Group → σ.Group → Bool) (key : GroupKey σ.Group)
    (position : ConnectPosition) (other : GroupKey σ.Group) : Bool :=
  match position with
  | .atBack => !groupKeyLess compare key other
  | .atFront => groupKeyLess compare other key

/-- No tracked object has just been released. -/
def unreleased (released : ObjectId → Bool) (connection : LiveConnection σ) : Bool :=
  !connection.trackedObjects.any fun p => released p.object

def apply (compare : σ.Group → σ.Group → Bool) (live : List (LiveConnection σ)) :
    LiveEvent σ → List (LiveConnection σ)
  | .connect connection position =>
      insertWhere (fun other => prior compare connection.groupKey position other.groupKey)
        connection live
  | .disconnect b => live.filter fun connection => connection.body ≠ b
  | .expire released => live.filter (unreleased released)

/-- The sequence is ordered by group. -/
def Ordered (compare : σ.Group → σ.Group → Bool) (live : List (LiveConnection σ)) : Prop :=
  Sorted (groupKeyLess compare) LiveConnection.groupKey live

section Placement

variable {compare : σ.Group → σ.Group → Bool} {live : List (LiveConnection σ)}
variable {connection : LiveConnection σ} {position : ConnectPosition}

variable (order : StrictWeak compare)

include order

/-- A sequence sorted by group is cut by every placement. -/
theorem prior_cut {Entry : Type*} {key : Entry → GroupKey σ.Group} {entries : List Entry}
    (sorted : Sorted (groupKeyLess compare) key entries) (bound : GroupKey σ.Group)
    (position : ConnectPosition) :
    Cut (fun other => prior compare bound position (key other)) entries := by
  have weak := groupKeyLess_strictWeak order
  cases position with
  | atBack => exact sorted.cut_notAbove weak bound
  | atFront => exact sorted.cut_below weak bound

/-- In an ordered sequence a connection made at the back of its group comes after
all groups that are not above it, one made at the front before all that are not
below. -/
theorem Ordered.apply_connect (ordered : Ordered compare live) :
    ∃ before after, live = before ++ after ∧
      apply compare live (.connect connection position) = before ++ connection :: after ∧
      (∀ other ∈ before, prior compare connection.groupKey position other.groupKey = true) ∧
      ∀ other ∈ after, prior compare connection.groupKey position other.groupKey = false := by
  have cut := prior_cut order ordered connection.groupKey position
  exact cut.insertWhere_split connection

theorem Ordered.apply (ordered : Ordered compare live) (event : LiveEvent σ) :
    Ordered compare (apply compare live event) := by
  have weak := groupKeyLess_strictWeak order
  cases event with
  | connect connection position =>
      refine Sorted.insert weak ordered (prior_cut order ordered connection.groupKey position) ?_ ?_
      · intro other _ stays
        cases position with
        | atBack => simpa [prior] using stays
        | atFront => exact weak.not_back stays
      · intro other _ moves
        cases position with
        | atBack =>
            have above : groupKeyLess compare connection.groupKey other.groupKey = true := by
              simpa [prior] using moves
            exact weak.not_back above
        | atFront => exact moves
  | disconnect b => exact ordered.filter _
  | expire released => exact ordered.filter _

end Placement

/-- Several disconnections are one filter. -/
theorem foldl_disconnect (compare : σ.Group → σ.Group → Bool) (bodies : List BodyId)
    (live : List (LiveConnection σ)) :
    (bodies.map LiveEvent.disconnect).foldl (apply compare) live =
      live.filter fun connection => !bodies.contains connection.body := by
  induction bodies generalizing live with
  | nil => simp
  | cons b rest ih =>
      rw [List.map_cons, List.foldl_cons, ih]
      simp only [apply, List.filter_filter]
      refine List.filter_congr fun connection _ => ?_
      simp only [List.contains_cons, Bool.not_or, ne_eq, decide_not]
      rw [Bool.and_comm]
      rfl

end LiveConnection

end Signals2
