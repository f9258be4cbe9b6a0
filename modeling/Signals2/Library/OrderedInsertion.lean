/-
Insertion into a sequence at the end of a prefix described by a predicate.

A sequence sorted by a strict weak order is cut in two by "not above this key"
and by "below this key".  For such cuts insertion commutes with every filter,
which is what makes the order of the surviving entries independent of when the
others are swept out.
-/

import Mathlib.Order.Defs.Unbundled
import Mathlib.Data.List.Basic

namespace OrderedInsertion

variable {Entry Key : Type*}

/-- Insert behind the longest prefix whose entries all satisfy `prior`. -/
def insertWhere (prior : Entry → Bool) (entry : Entry) (entries : List Entry) :
    List Entry :=
  entries.takeWhile prior ++ entry :: entries.dropWhile prior

theorem insertWhere_first (entry : Entry) (entries : List Entry) :
    insertWhere (fun _ => false) entry entries = entry :: entries := by
  cases entries <;> rfl

theorem insertWhere_last (entry : Entry) (entries : List Entry) :
    insertWhere (fun _ => true) entry entries = entries ++ [entry] := by
  induction entries with
  | nil => rfl
  | cons first rest ih => exact congrArg (first :: ·) ih

/-- Once an entry fails `prior`, so does every later one. -/
def Cut (prior : Entry → Bool) (entries : List Entry) : Prop :=
  entries.Pairwise fun earlier later => prior later = true → prior earlier = true

theorem takeWhile_eq_filter {prior : Entry → Bool} {entries : List Entry}
    (cut : Cut prior entries) : entries.takeWhile prior = entries.filter prior := by
  induction entries with
  | nil => rfl
  | cons head tail ih =>
      have headTail := List.pairwise_cons.mp cut
      cases holds : prior head with
      | true =>
          rw [List.takeWhile_cons_of_pos holds, List.filter_cons_of_pos holds,
            ih headTail.2]
      | false =>
          have noneLater : tail.filter prior = [] := by
            rw [List.filter_eq_nil_iff]
            intro later member satisfied
            rw [headTail.1 later member satisfied] at holds
            contradiction
          rw [List.takeWhile_cons_of_neg (by simp [holds]),
            List.filter_cons_of_neg (by simp [holds]), noneLater]

theorem dropWhile_eq_filter {prior : Entry → Bool} {entries : List Entry}
    (cut : Cut prior entries) :
    entries.dropWhile prior = entries.filter fun entry => !prior entry := by
  induction entries with
  | nil => rfl
  | cons head tail ih =>
      have headTail := List.pairwise_cons.mp cut
      cases holds : prior head with
      | true =>
          rw [List.dropWhile_cons_of_pos holds,
            List.filter_cons_of_neg (by simp [holds]), ih headTail.2]
      | false =>
          have allLater : (tail.filter fun entry => !prior entry) = tail := by
            rw [List.filter_eq_self]
            intro later member
            cases satisfied : prior later with
            | false => rfl
            | true =>
                rw [headTail.1 later member satisfied] at holds
                contradiction
          rw [List.dropWhile_cons_of_neg (by simp [holds]),
            List.filter_cons_of_pos (by simp [holds]), allLater]

theorem Cut.filter {prior : Entry → Bool} {entries : List Entry}
    (cut : Cut prior entries) (keep : Entry → Bool) :
    Cut prior (entries.filter keep) :=
  List.Pairwise.filter keep cut

/-- Sweeping the other entries before or after an insertion is the same. -/
theorem filter_insertWhere {prior : Entry → Bool} {entries : List Entry}
    (cut : Cut prior entries) (keep : Entry → Bool) {entry : Entry}
    (kept : keep entry = true) :
    (insertWhere prior entry entries).filter keep =
      insertWhere prior entry (entries.filter keep) := by
  unfold insertWhere
  rw [takeWhile_eq_filter cut, dropWhile_eq_filter cut,
    takeWhile_eq_filter (cut.filter keep), dropWhile_eq_filter (cut.filter keep),
    List.filter_append, List.filter_cons_of_pos kept]
  simp only [List.filter_filter, Bool.and_comm]

theorem filter_insertWhere_dropped {prior : Entry → Bool} {entries : List Entry}
    (keep : Entry → Bool) {entry : Entry} (dropped : keep entry = false) :
    (insertWhere prior entry entries).filter keep = entries.filter keep := by
  unfold insertWhere
  rw [List.filter_append, List.filter_cons_of_neg (by simp [dropped]),
    ← List.filter_append, List.takeWhile_append_dropWhile]

theorem map_insertWhere {Image : Type*} (f : Entry → Image) (prior : Image → Bool)
    (entry : Entry) (entries : List Entry) :
    (insertWhere (fun e => prior (f e)) entry entries).map f =
      insertWhere prior (f entry) (entries.map f) := by
  unfold insertWhere
  rw [List.map_append, List.map_cons, List.takeWhile_map, List.dropWhile_map]
  rfl

/-- Where a sequence is cut, the entry goes between the two parts. -/
theorem Cut.insertWhere_eq {prior : Entry → Bool} {entries : List Entry}
    (cut : Cut prior entries) (entry : Entry) :
    insertWhere prior entry entries =
      entries.filter prior ++ entry :: entries.filter fun e => !prior e := by
  unfold insertWhere
  rw [takeWhile_eq_filter cut, dropWhile_eq_filter cut]

theorem insertWhere_append {prior : Entry → Bool} {entry : Entry}
    {before after : List Entry} (left : ∀ e ∈ before, prior e = true)
    (right : ∀ e ∈ after, prior e = false) :
    insertWhere prior entry (before ++ after) = before ++ entry :: after := by
  unfold insertWhere
  have stop : after.takeWhile prior = [] ∧ after.dropWhile prior = after := by
    cases after with
    | nil => exact ⟨rfl, rfl⟩
    | cons head tail =>
        have failed : ¬ prior head = true := by simp [right head List.mem_cons_self]
        exact ⟨List.takeWhile_cons_of_neg failed, List.dropWhile_cons_of_neg failed⟩
  rw [List.takeWhile_append_of_pos left, List.dropWhile_append_of_pos left,
    stop.1, stop.2, List.append_nil]

theorem mem_insertWhere {prior : Entry → Bool} {entry other : Entry} {entries : List Entry}
    (member : other ∈ insertWhere prior entry entries) : other = entry ∨ other ∈ entries := by
  unfold insertWhere at member
  rcases List.mem_append.mp member with before | after
  · exact .inr ((List.takeWhile_sublist prior).subset before)
  · rcases List.mem_cons.mp after with same | later
    · exact .inl same
    · exact .inr ((List.dropWhile_sublist prior).subset later)

theorem insertWhere_congr {prior prior' : Entry → Bool} {entries : List Entry}
    (same : ∀ e ∈ entries, prior e = prior' e) (entry : Entry) :
    insertWhere prior entry entries = insertWhere prior' entry entries := by
  induction entries with
  | nil => rfl
  | cons head tail ih =>
      have here := same head List.mem_cons_self
      have later := ih fun e member => same e (List.mem_cons_of_mem head member)
      unfold insertWhere at later ⊢
      cases holds : prior head with
      | false =>
          have fails := here.symm.trans holds
          simp [holds, fails]
      | true =>
          have holds' := here.symm.trans holds
          simpa [holds, holds'] using later

/-- Where the whole is cut, an insertion into a part is part of the insertion into it. -/
theorem Cut.insertWhere_sublist {prior : Entry → Bool} {part whole : List Entry}
    (cut : Cut prior whole) (sublist : part.Sublist whole) (entry : Entry) :
    (insertWhere prior entry part).Sublist (insertWhere prior entry whole) := by
  have cutPart : Cut prior part := List.Pairwise.sublist sublist cut
  rw [cut.insertWhere_eq, cutPart.insertWhere_eq]
  exact (sublist.filter _).append ((sublist.filter _).cons_cons entry)

/-- The entry goes between those that satisfy `prior` and those that do not. -/
theorem Cut.insertWhere_split {prior : Entry → Bool} {entries : List Entry}
    (cut : Cut prior entries) (entry : Entry) :
    ∃ before after, entries = before ++ after ∧
      insertWhere prior entry entries = before ++ entry :: after ∧
      (∀ e ∈ before, prior e = true) ∧ ∀ e ∈ after, prior e = false := by
  refine ⟨_, _, ?_, cut.insertWhere_eq entry, ?_, ?_⟩
  · rw [← takeWhile_eq_filter cut, ← dropWhile_eq_filter cut, List.takeWhile_append_dropWhile]
  · intro e member
    exact (List.mem_filter.mp member).2
  · intro e member
    simpa using (List.mem_filter.mp member).2

theorem Cut.sublist_insertWhere {prior : Entry → Bool} {entries : List Entry}
    (cut : Cut prior entries) (entry : Entry) :
    entries.Sublist (insertWhere prior entry entries) := by
  have whole : entries = entries.filter prior ++ entries.filter fun e => !prior e := by
    rw [← takeWhile_eq_filter cut, ← dropWhile_eq_filter cut, List.takeWhile_append_dropWhile]
  rw [cut.insertWhere_eq]
  nth_rewrite 1 [whole]
  exact List.Sublist.append_left (List.sublist_cons_self entry _) _

/-- A comparison with a Boolean answer that is a strict weak order. -/
abbrev StrictWeak (less : Key → Key → Bool) : Prop :=
  IsStrictWeakOrder Key fun first second => less first second = true

namespace StrictWeak

variable {less : Key → Key → Bool}

theorem not_self (order : StrictWeak less) (key : Key) : less key key = false := by
  have irreflexive := order.irrefl key
  simpa using irreflexive

theorem chain (order : StrictWeak less) {first second third : Key}
    (left : less first second = true) (right : less second third = true) :
    less first third = true :=
  order.trans first second third left right

theorem not_back (order : StrictWeak less) {first second : Key}
    (before : less first second = true) : less second first = false := by
  cases back : less second first with
  | false => rfl
  | true =>
      have loop := order.chain before back
      rw [order.not_self] at loop
      contradiction

/-- Not being below is transitive; this is where weakness of the order enters. -/
theorem notLess_trans (order : StrictWeak less) {first second third : Key}
    (left : less first second = false) (right : less second third = false) :
    less first third = false := by
  cases forward : less first third with
  | false => rfl
  | true =>
      have secondFirst : less second first = false := by
        cases above : less second first with
        | false => rfl
        | true => rw [order.chain above forward] at right; contradiction
      have thirdSecond : less third second = false := by
        cases above : less third second with
        | false => rfl
        | true => rw [order.chain forward above] at left; contradiction
      have incomparable := order.incomp_trans first second third
        (by simp [left, secondFirst]) (by simp [right, thirdSecond])
      simp [forward] at incomparable

theorem less_of_less_of_notLess (order : StrictWeak less) {first second third : Key}
    (before : less first second = true) (notBelow : less third second = false) :
    less first third = true := by
  cases forward : less first third with
  | true => rfl
  | false => rw [order.notLess_trans forward notBelow] at before; contradiction

theorem less_of_notLess_of_less (order : StrictWeak less) {first second third : Key}
    (notBelow : less second first = false) (before : less second third = true) :
    less first third = true := by
  cases forward : less first third with
  | true => rfl
  | false => rw [order.notLess_trans notBelow forward] at before; contradiction

end StrictWeak

/-- No entry is above a later one. -/
def Sorted (less : Key → Key → Bool) (key : Entry → Key) (entries : List Entry) : Prop :=
  entries.Pairwise fun earlier later => less (key later) (key earlier) = false

variable {less : Key → Key → Bool}

theorem Sorted.cut_notAbove (order : StrictWeak less) {key : Entry → Key}
    {entries : List Entry} (sorted : Sorted less key entries) (bound : Key) :
    Cut (fun entry => !less bound (key entry)) entries := by
  refine List.Pairwise.imp ?_ sorted
  intro earlier later ordered notAbove
  simp only [Bool.not_eq_true'] at notAbove ⊢
  exact order.notLess_trans notAbove ordered

theorem Sorted.cut_below (order : StrictWeak less) {key : Entry → Key}
    {entries : List Entry} (sorted : Sorted less key entries) (bound : Key) :
    Cut (fun entry => less (key entry) bound) entries := by
  refine List.Pairwise.imp ?_ sorted
  intro earlier later ordered below
  exact order.less_of_notLess_of_less ordered below

/-- An insertion between what is not above the entry and what is above it. -/
theorem Sorted.insert (order : StrictWeak less) {key : Entry → Key} {entries : List Entry}
    (sorted : Sorted less key entries) {entry : Entry} {prior : Entry → Bool}
    (cut : Cut prior entries)
    (below : ∀ e ∈ entries, prior e = true → less (key entry) (key e) = false)
    (above : ∀ e ∈ entries, prior e = false → less (key e) (key entry) = false) :
    Sorted less key (insertWhere prior entry entries) := by
  rw [cut.insertWhere_eq]
  have bounded : ∀ e ∈ entries.filter prior, less (key entry) (key e) = false := by
    intro e member
    obtain ⟨inside, holds⟩ := List.mem_filter.mp member
    exact below e inside holds
  have bounding : ∀ e ∈ entries.filter (fun e => !prior e),
      less (key e) (key entry) = false := by
    intro e member
    obtain ⟨inside, fails⟩ := List.mem_filter.mp member
    exact above e inside (by simpa using fails)
  refine List.pairwise_append.mpr ⟨sorted.filter _, ?_, ?_⟩
  · exact List.pairwise_cons.mpr ⟨bounding, sorted.filter _⟩
  · intro earlier inBefore later inRest
    rcases List.mem_cons.mp inRest with rfl | inAfter
    · exact bounded earlier inBefore
    · exact order.notLess_trans (bounding later inAfter) (bounded earlier inBefore)

/-- An entry that stands in a relation to what it comes between keeps the sequence in it. -/
theorem Cut.pairwise_insertWhere {Related : Entry → Entry → Prop} {entries : List Entry}
    {entry : Entry} {prior : Entry → Bool} (cut : Cut prior entries)
    (related : entries.Pairwise Related)
    (below : ∀ e ∈ entries, prior e = true → Related e entry)
    (above : ∀ e ∈ entries, prior e = false → Related entry e) :
    (insertWhere prior entry entries).Pairwise Related := by
  have split : entries.takeWhile prior ++ entries.dropWhile prior = entries :=
    List.takeWhile_append_dropWhile
  have parts : (entries.takeWhile prior ++ entries.dropWhile prior).Pairwise Related := by
    rw [split]
    exact related
  obtain ⟨first, second, across⟩ := List.pairwise_append.mp parts
  have bounded : ∀ e ∈ entries.takeWhile prior, Related e entry := by
    intro e member
    rw [takeWhile_eq_filter cut, List.mem_filter] at member
    exact below e member.1 member.2
  have bounding : ∀ e ∈ entries.dropWhile prior, Related entry e := by
    intro e member
    rw [dropWhile_eq_filter cut, List.mem_filter] at member
    exact above e member.1 (by simpa using member.2)
  apply List.pairwise_append.mpr
  constructor
  · exact first
  · constructor
    · exact List.pairwise_cons.mpr ⟨bounding, second⟩
    · intro e member other later
      rcases List.mem_cons.mp later with rfl | after
      · exact bounded e member
      · exact across e member other after

end OrderedInsertion
