/-
All buffers together: every object keeps its elements in a storage of its own, nothing
else is live and no other block is allocated.
-/

import Mathlib.Algebra.BigOperators.Group.Finset.Basic
import Mathlib.Algebra.BigOperators.Ring.Finset
import Signals2.AutoBufferStorage

namespace Signals2

open FalliblePrograms FalliblePrograms.Program AutoBuffer

variable {t : BufferTemplate}

/-- The lists that the buffers of the client stand for. -/
abbrev Contents (t : BufferTemplate) := BufferName → Option (List t.T)

/-- How many elements a buffer has, if it is there. -/
def elementCount {T : Type} : Option (List T) → Int
  | none => 0
  | some list => list.length

/-- The sum over all buffers. -/
def Total (lists : Contents t) (count : Int) : Prop :=
  ∃ names : Finset BufferName, (∀ b, b ∉ names → lists b = none) ∧
    count = ∑ b ∈ names, elementCount (lists b)

namespace Total

variable {lists : Contents t} {count : Int}

theorem empty : Total (fun _ => none : Contents t) 0 :=
  ⟨∅, fun _ _ => rfl, rfl⟩

theorem update (total : Total lists count) (b : BufferName) (entry : Option (List t.T)) :
    Total (Function.update lists b entry)
      (count + elementCount entry - elementCount (lists b)) := by
  obtain ⟨names, outside, sum⟩ := total
  refine ⟨insert b names, ?_, ?_⟩
  · intro b' absent
    rw [Finset.mem_insert, not_or] at absent
    rw [Function.update_of_ne absent.1]
    exact outside b' absent.2
  · have before : count = ∑ b' ∈ insert b names, elementCount (lists b') := by
      by_cases there : b ∈ names
      · rw [Finset.insert_eq_of_mem there, sum]
      · rw [Finset.sum_insert there, outside b there, elementCount, zero_add, sum]
    rw [before, ← Finset.add_sum_erase _ _ (Finset.mem_insert_self b names),
      ← Finset.add_sum_erase _ _ (Finset.mem_insert_self b names), Function.update_self]
    have same : ∑ b' ∈ (insert b names).erase b, elementCount (Function.update lists b entry b') =
        ∑ b' ∈ (insert b names).erase b, elementCount (lists b') := by
      refine Finset.sum_congr rfl fun b' other => ?_
      rw [Function.update_of_ne (Finset.ne_of_mem_erase other)]
    rw [same]
    omega

end Total

namespace Layout

/-- The object has its elements there. -/
def Owns (l : Layout t) (b : BufferName) (storage : Storage) : Prop :=
  ∃ o, l.objects b = some o ∧ o.buffer = some storage

structure Accounted (l : Layout t) (lists : Contents t) : Prop where
  houses : ∀ b list, lists b = some list → ∃ o storage, l.Housed b o storage list
  gone : ∀ b, lists b = none → l.objects b = none
  apart : ∀ b b' storage, l.Owns b storage → l.Owns b' storage → b = b'
  idle : ∀ storage, (∀ b, ¬ l.Owns b storage) → l.live storage = []
  freed : ∀ k, (∀ b, ¬ l.Owns b (.block k)) → l.blocks k = none
  total : Total lists l.count

variable {l l' : Layout t} {lists lists' : Contents t} {b r : BufferName}
variable {o o' : AutoBuffer} {storage other : Storage} {list list' : List t.T} {c : Nat}

theorem Housed.owns (housed : l.Housed b o storage list) : l.Owns b storage :=
  ⟨o, housed.object, housed.buffer⟩

theorem Housed.owns_iff (housed : l.Housed b o storage list) :
    l.Owns b other ↔ other = storage := by
  constructor
  · rintro ⟨o', there, buffer⟩
    rw [housed.object, Option.some.injEq] at there
    rw [← there, housed.buffer, Option.some.injEq] at buffer
    exact buffer.symm
  · rintro rfl
    exact housed.owns

namespace Accounted

theorem housed (accounted : Accounted l lists) (there : l.objects b = some o) :
    ∃ storage list, lists b = some list ∧ l.Housed b o storage list := by
  cases entry : lists b with
  | none =>
      rw [accounted.gone b entry] at there
      cases there
  | some list =>
      obtain ⟨o', storage, housed⟩ := accounted.houses b list entry
      have same := housed.object
      rw [there, Option.some.injEq] at same
      subst same
      exact ⟨storage, list, rfl, housed⟩

theorem entry (accounted : Accounted l lists) (housed : l.Housed b o storage list) :
    lists b = some list := by
  obtain ⟨storage', list', entry, housed'⟩ := accounted.housed housed.object
  have same : storage' = storage := (housed.owns_iff).mp housed'.owns
  rw [entry, ← housed'.live, same, housed.live]

/-- An owner keeps elements there. -/
theorem owner (accounted : Accounted l lists) (owns : l.Owns b storage) :
    ∃ o list, lists b = some list ∧ l.Housed b o storage list := by
  obtain ⟨o, there, buffer⟩ := owns
  obtain ⟨storage', list, entry, housed⟩ := accounted.housed there
  have same := housed.buffer
  rw [buffer, Option.some.injEq] at same
  subst same
  exact ⟨o, list, entry, housed⟩

/-- What may be handed out to an object is no other object's. -/
theorem unowned (accounted : Accounted l lists) (free : l.Free b c storage)
    (owns : l.Owns r storage) : r = b := by
  obtain ⟨o, list, _, housed⟩ := accounted.owner owns
  have holds := housed.holds
  cases storage with
  | internal b' => exact holds.1.symm.trans free.1
  | block k =>
      have allocated := holds.2
      rw [free.2] at allocated
      cases allocated

/-- An internal storage is its own object's or nobody's. -/
theorem unused (accounted : Accounted l lists) (housed : l.Housed b o storage list)
    (outside : storage ≠ .internal b) : l.live (.internal b) = [] := by
  apply accounted.idle
  intro r owns
  have free : l.Free b t.N (.internal b) := ⟨rfl, Nat.le_refl _⟩
  have mine : r = b := accounted.unowned free owns
  subst mine
  exact outside (housed.owns_iff.mp owns).symm

/-- Nothing lives in the storage of an object that is not there. -/
theorem vacant (accounted : Accounted l lists) (gone : l.objects b = none) :
    l.live (.internal b) = [] := by
  apply accounted.idle
  intro r owns
  obtain ⟨o, list, entry, housed⟩ := accounted.owner owns
  rw [housed.holds.1, housed.object] at gone
  cases gone

/-- Some objects change, with what they keep in some storages; the others stay as they
are. -/
theorem change (accounted : Accounted l lists) (Changed : BufferName → Prop)
    (Touched : Storage → Prop)
    (others : ∀ b, ¬ Changed b → l'.objects b = l.objects b ∧ lists' b = lists b)
    (elsewhere : ∀ storage, ¬ Touched storage →
      l'.live storage = l.live storage ∧ ∀ k, storage = .block k → l'.blocks k = l.blocks k)
    (theirs : ∀ b storage, Touched storage → l.Owns b storage → Changed b)
    (old : ∀ b storage, Changed b → l.Owns b storage → Touched storage)
    (new : ∀ b storage, Changed b → l'.Owns b storage → Touched storage)
    (houses : ∀ b list, Changed b → lists' b = some list → ∃ o storage, l'.Housed b o storage list)
    (gone : ∀ b, Changed b → lists' b = none → l'.objects b = none)
    (apart : ∀ b r storage, Changed b → Changed r → l'.Owns b storage → l'.Owns r storage → b = r)
    (cleared : ∀ storage, Touched storage → (∀ b, Changed b → ¬ l'.Owns b storage) →
      l'.live storage = [] ∧ ∀ k, storage = .block k → l'.blocks k = none)
    (total : Total lists' l'.count) : Accounted l' lists' := by
  have same : ∀ b storage, ¬ Changed b → (l'.Owns b storage ↔ l.Owns b storage) := by
    intro b storage unchanged
    unfold Owns
    rw [(others b unchanged).1]
  have nobody : ∀ storage, (∀ b, ¬ l'.Owns b storage) →
      l'.live storage = [] ∧ ∀ k, storage = .block k → l'.blocks k = none := by
    intro storage free
    by_cases touched : Touched storage
    · exact cleared storage touched fun b _ => free b
    · have before : ∀ b, ¬ l.Owns b storage := by
        intro b owns
        by_cases changed : Changed b
        · exact touched (old b storage changed owns)
        · exact free b ((same b storage changed).mpr owns)
      obtain ⟨live, blocks⟩ := elsewhere storage touched
      refine ⟨live.trans (accounted.idle storage before), ?_⟩
      rintro k rfl
      exact (blocks k rfl).trans (accounted.freed k before)
  refine
    { houses := ?_
      gone := ?_
      apart := ?_
      idle := fun storage free => (nobody storage free).1
      freed := fun k free => (nobody (.block k) free).2 k rfl
      total := total }
  · intro b list entry
    by_cases changed : Changed b
    · exact houses b list changed entry
    · rw [(others b changed).2] at entry
      obtain ⟨o, storage, housed⟩ := accounted.houses b list entry
      obtain ⟨live, blocks⟩ := elsewhere storage fun touched =>
        changed (theirs b storage touched housed.owns)
      refine ⟨o, storage, ?_⟩
      exact
        { object := by
            rw [(others b changed).1]
            exact housed.object
          buffer := housed.buffer
          size := housed.size
          live := by
            rw [live]
            exact housed.live
          fits := housed.fits
          least := housed.least
          holds := by
            have holds := housed.holds
            cases storage with
            | internal b' => exact holds
            | block k => exact ⟨holds.1, (blocks k rfl).trans holds.2⟩ }
  · intro b entry
    by_cases changed : Changed b
    · exact gone b changed entry
    · rw [(others b changed).2] at entry
      rw [(others b changed).1]
      exact accounted.gone b entry
  · intro b r storage owns owns'
    by_cases changed : Changed b
    · by_cases changed' : Changed r
      · exact apart b r storage changed changed' owns owns'
      · rw [same r storage changed'] at owns'
        exact (changed' (theirs r storage (new b storage changed owns) owns')).elim
    · rw [same b storage changed] at owns
      by_cases changed' : Changed r
      · exact (changed (theirs b storage (new r storage changed' owns') owns)).elim
      · rw [same r storage changed'] at owns'
        exact accounted.apart b r storage owns owns'

/-- One object changes. -/
theorem changeOne {entry : Option (List t.T)} (accounted : Accounted l lists)
    (Touched : Storage → Prop)
    (others : ∀ r, r ≠ b → l'.objects r = l.objects r)
    (elsewhere : ∀ storage, ¬ Touched storage →
      l'.live storage = l.live storage ∧ ∀ k, storage = .block k → l'.blocks k = l.blocks k)
    (mine : ∀ r storage, Touched storage → l.Owns r storage → r = b)
    (old : ∀ storage, l.Owns b storage → Touched storage)
    (new : ∀ storage, l'.Owns b storage → Touched storage)
    (houses : ∀ list, entry = some list → ∃ o storage, l'.Housed b o storage list)
    (gone : entry = none → l'.objects b = none)
    (cleared : ∀ storage, Touched storage → ¬ l'.Owns b storage →
      l'.live storage = [] ∧ ∀ k, storage = .block k → l'.blocks k = none)
    (count : l'.count = l.count + elementCount entry - elementCount (lists b)) :
    Accounted l' (Function.update lists b entry) := by
  refine accounted.change (· = b) Touched ?_ elsewhere mine ?_ ?_ ?_ ?_ ?_ ?_ ?_
  · intro r other
    exact ⟨others r other, Function.update_of_ne other _ _⟩
  · rintro r storage rfl owns
    exact old storage owns
  · rintro r storage rfl owns
    exact new storage owns
  · rintro r list rfl entry
    rw [Function.update_self] at entry
    exact houses list entry
  · rintro r rfl entry
    rw [Function.update_self] at entry
    exact gone entry
  · rintro r r' storage rfl rfl _ _
    rfl
  · intro storage touched nobody
    exact cleared storage touched (nobody b rfl)
  · rw [count]
    exact accounted.total.update b entry

/-- Two objects change. -/
theorem changeTwo {q q' : AutoBuffer} {oldB oldR newB newR : Storage} {listB listR : List t.T}
    (accounted : Accounted l lists) (different : b ≠ r) (Touched : Storage → Prop)
    (before : l.Housed b o oldB list) (beforeR : l.Housed r q oldR list')
    (after : l'.Housed b o' newB listB) (afterR : l'.Housed r q' newR listR)
    (others : ∀ x, x ≠ b → x ≠ r → l'.objects x = l.objects x)
    (elsewhere : ∀ storage, ¬ Touched storage →
      l'.live storage = l.live storage ∧ ∀ k, storage = .block k → l'.blocks k = l.blocks k)
    (theirs : ∀ x storage, Touched storage → l.Owns x storage → x = b ∨ x = r)
    (old : Touched oldB ∧ Touched oldR) (new : Touched newB ∧ Touched newR) (apart : newB ≠ newR)
    (cleared : ∀ storage, Touched storage → storage ≠ newB → storage ≠ newR →
      l'.live storage = [] ∧ ∀ k, storage = .block k → l'.blocks k = none)
    (count : l'.count = l.count + listB.length + listR.length - list.length - list'.length) :
    Accounted l' (Function.update (Function.update lists r (some listR)) b (some listB)) := by
  refine accounted.change (fun x => x = b ∨ x = r) Touched ?_ elsewhere theirs ?_ ?_ ?_ ?_ ?_ ?_ ?_
  · intro x unchanged
    rw [not_or] at unchanged
    refine ⟨others x unchanged.1 unchanged.2, ?_⟩
    rw [Function.update_of_ne unchanged.1, Function.update_of_ne unchanged.2]
  · rintro x storage (rfl | rfl) owns
    · rw [before.owns_iff.mp owns]
      exact old.1
    · rw [beforeR.owns_iff.mp owns]
      exact old.2
  · rintro x storage (rfl | rfl) owns
    · rw [after.owns_iff.mp owns]
      exact new.1
    · rw [afterR.owns_iff.mp owns]
      exact new.2
  · rintro x entry (rfl | rfl) there
    · rw [Function.update_self, Option.some.injEq] at there
      subst there
      exact ⟨_, _, after⟩
    · rw [Function.update_of_ne (Ne.symm different), Function.update_self,
        Option.some.injEq] at there
      subst there
      exact ⟨_, _, afterR⟩
  · rintro x (rfl | rfl) there
    · rw [Function.update_self] at there
      cases there
    · rw [Function.update_of_ne (Ne.symm different), Function.update_self] at there
      cases there
  · rintro x y storage (rfl | rfl) (rfl | rfl) owns owns'
    · rfl
    · exact (apart ((after.owns_iff.mp owns).symm.trans (afterR.owns_iff.mp owns'))).elim
    · exact (apart ((after.owns_iff.mp owns').symm.trans (afterR.owns_iff.mp owns))).elim
    · rfl
  · intro storage touched nobody
    refine cleared storage touched ?_ ?_
    · rintro rfl
      exact nobody b (.inl rfl) after.owns
    · rintro rfl
      exact nobody r (.inr rfl) afterR.owns
  · have total := (accounted.total.update r (some listR)).update b (some listB)
    rw [Function.update_of_ne different, accounted.entry before, accounted.entry beforeR] at total
    have same : l'.count = l.count + elementCount (some listR) - elementCount (some list') +
        elementCount (some listB) - elementCount (some list) := by
      rw [count]
      simp only [elementCount]
      omega
    rw [same]
    exact total

/-- An object takes over what another one has, which ends. -/
theorem handOver {q : AutoBuffer} {oldB oldR : Storage} (accounted : Accounted l lists)
    (different : b ≠ r) (before : l.Housed b o oldB list) (beforeR : l.Housed r q oldR list')
    (after : l'.Housed b o' oldR list') (gone : l'.objects r = none)
    (others : ∀ x, x ≠ b → x ≠ r → l'.objects x = l.objects x)
    (elsewhere : ∀ storage, ¬ (storage = oldB ∨ storage = oldR) →
      l'.live storage = l.live storage ∧ ∀ k, storage = .block k → l'.blocks k = l.blocks k)
    (cleared : l'.live oldB = [] ∧ ∀ k, oldB = .block k → l'.blocks k = none)
    (count : l'.count = l.count - list.length) :
    Accounted l' (Function.update (Function.update lists b (some list')) r none) := by
  have nobody : ∀ storage, ¬ l'.Owns r storage := by
    rintro storage ⟨x, there, _⟩
    rw [gone] at there
    cases there
  refine accounted.change (fun x => x = b ∨ x = r) (fun s => s = oldB ∨ s = oldR) ?_ elsewhere
    ?_ ?_ ?_ ?_ ?_ ?_ ?_ ?_
  · intro x unchanged
    rw [not_or] at unchanged
    refine ⟨others x unchanged.1 unchanged.2, ?_⟩
    rw [Function.update_of_ne unchanged.2, Function.update_of_ne unchanged.1]
  · rintro x storage (rfl | rfl) owns
    · exact .inl (accounted.apart x b _ owns before.owns)
    · exact .inr (accounted.apart x r _ owns beforeR.owns)
  · rintro x storage (rfl | rfl) owns
    · exact .inl (before.owns_iff.mp owns)
    · exact .inr (beforeR.owns_iff.mp owns)
  · rintro x storage (rfl | rfl) owns
    · exact .inr (after.owns_iff.mp owns)
    · exact (nobody storage owns).elim
  · rintro x entry (rfl | rfl) there
    · rw [Function.update_of_ne different, Function.update_self, Option.some.injEq] at there
      subst there
      exact ⟨_, _, after⟩
    · rw [Function.update_self] at there
      cases there
  · rintro x (rfl | rfl) there
    · rw [Function.update_of_ne different, Function.update_self] at there
      cases there
    · exact gone
  · rintro x y storage (rfl | rfl) (rfl | rfl) owns owns'
    · rfl
    · exact (nobody storage owns').elim
    · exact (nobody storage owns).elim
    · rfl
  · rintro storage (rfl | rfl) free
    · exact cleared
    · exact (free b (.inl rfl) after.owns).elim
  · have total := (accounted.total.update b (some list')).update r none
    rw [Function.update_of_ne (Ne.symm different), accounted.entry before,
      accounted.entry beforeR] at total
    have same : l'.count = l.count + elementCount (some list') - elementCount (some list) +
        elementCount (none : Option (List t.T)) - elementCount (some list') := by
      rw [count]
      simp only [elementCount]
      omega
    rw [same]
    exact total

/-- The object has other elements in the same storage. -/
theorem refill (accounted : Accounted l lists) (housed : l.Housed b o storage list)
    (fits : list'.length ≤ o.capacity) :
    Accounted ((l.setLive storage list').setObject b (some { o with size := list'.length }))
      (Function.update lists b (some list')) := by
  have housed' := housed.refill fits
  refine accounted.changeOne (· = storage) ?_ ?_ ?_ ?_ ?_ ?_ ?_ ?_ ?_
  · intro r other
    exact Function.update_of_ne other _ _
  · intro storage' different
    exact ⟨setLive_live_other different, fun _ _ => rfl⟩
  · rintro r storage' rfl owns
    exact accounted.apart r b storage' owns housed.owns
  · intro storage' owns
    exact housed.owns_iff.mp owns
  · intro storage' owns
    exact housed'.owns_iff.mp owns
  · intro list'' entry
    rw [Option.some.injEq] at entry
    subst entry
    exact ⟨_, _, housed'⟩
  · intro entry
    cases entry
  · rintro storage' rfl free
    exact (free housed'.owns).elim
  · rw [accounted.entry housed, ← housed.live]
    rfl

/-- The object has elements in another storage that nobody had. -/
theorem moved (accounted : Accounted l lists) (housed : l.Housed b o storage list)
    (free : l.Free b c other) (apart : other ≠ storage) (empty : l.live other = [])
    (fits : list.length ≤ c) (large : t.N ≤ c) :
    (l.moved b o storage other c list).Housed b { o with buffer := some other, capacity := c }
        other list ∧
      Accounted (l.moved b o storage other c list) lists := by
  have housed' : (l.moved b o storage other c list).Housed b
      { o with buffer := some other, capacity := c } other list := by
    exact
      { object := Function.update_self _ _ _
        buffer := rfl
        size := housed.size
        live := by
          unfold Layout.moved
          rw [setObject_live, release_live, setLive_live_other apart, setLive_live]
        fits := fits
        least := large
        holds := by
          have held := free.held
          cases other with
          | internal b' => exact held
          | block k =>
              refine ⟨held.1, ?_⟩
              unfold Layout.moved
              rw [setObject_blocks, release_blocks_other (Ne.symm apart)]
              exact held.2 }
  have entry := accounted.entry housed
  refine ⟨housed', ?_⟩
  have same : Function.update lists b (some list) = lists := by
    rw [← entry, Function.update_eq_self]
  rw [← same]
  refine accounted.changeOne (fun s => s = storage ∨ s = other) ?_ ?_ ?_ ?_ ?_ ?_ ?_ ?_ ?_
  · intro r different
    unfold Layout.moved
    simp [setObject, different]
  · intro s untouched
    rw [not_or] at untouched
    unfold Layout.moved
    constructor
    · rw [setObject_live, release_live, setLive_live_other untouched.1,
        setLive_live_other untouched.2, grant_live]
    · rintro k rfl
      rw [setObject_blocks, release_blocks_other (Ne.symm untouched.1), setLive_blocks,
        setLive_blocks, grant_blocks_other (Ne.symm untouched.2)]
  · rintro r s (rfl | rfl) owns
    · exact accounted.apart r b s owns housed.owns
    · exact accounted.unowned free owns
  · intro s owns
    exact .inl (housed.owns_iff.mp owns)
  · intro s owns
    exact .inr (housed'.owns_iff.mp owns)
  · intro list' entry'
    rw [Option.some.injEq] at entry'
    subst entry'
    exact ⟨_, _, housed'⟩
  · intro entry'
    cases entry'
  · rintro s (rfl | rfl) nobody
    · unfold Layout.moved
      constructor
      · rw [setObject_live, release_live, setLive_live]
      · rintro k rfl
        exact Function.update_self _ _ _
    · exact (nobody housed'.owns).elim
  · rw [entry]
    have gained : (l.moved b o storage other c list).count =
        l.count + list.length - (l.live other).length + ([] : List t.T).length -
          ((((l.grant other c).setLive other list).live storage).length : Int) := by
      unfold Layout.moved
      simp [setObject, setLive]
    rw [gained, empty, setLive_live_other (Ne.symm apart), grant_live, housed.live]
    simp only [elementCount, List.length_nil, Nat.cast_zero]
    omega

/-- A new object. -/
theorem add (accounted : Accounted l lists) (absent : lists b = none)
    (free : l.Free b o.capacity storage) (empty : l.live storage = [])
    (housed : (((l.grant storage o.capacity).setLive storage list).setObject b
      (some o)).Housed b o storage list) :
    Accounted (((l.grant storage o.capacity).setLive storage list).setObject b (some o))
      (Function.update lists b (some list)) := by
  refine accounted.changeOne (· = storage) ?_ ?_ ?_ ?_ ?_ ?_ ?_ ?_ ?_
  · intro r different
    simp [setObject, different]
  · intro s untouched
    constructor
    · rw [setObject_live, setLive_live_other untouched, grant_live]
    · rintro k rfl
      rw [setObject_blocks, setLive_blocks, grant_blocks_other (Ne.symm untouched)]
  · rintro r s rfl owns
    exact accounted.unowned free owns
  · rintro s ⟨o', there, _⟩
    rw [accounted.gone b absent] at there
    cases there
  · intro s owns
    exact housed.owns_iff.mp owns
  · intro list' entry
    rw [Option.some.injEq] at entry
    subst entry
    exact ⟨_, _, housed⟩
  · intro entry
    cases entry
  · rintro s rfl nobody
    exact (nobody housed.owns).elim
  · rw [absent]
    simp [setObject, setLive, elementCount, empty]

/-- The object ends, with its elements and its storage. -/
theorem remove (accounted : Accounted l lists) (housed : l.Housed b o storage list) :
    Accounted (((l.setLive storage []).release storage).setObject b none)
      (Function.update lists b none) := by
  have nothing : ∀ s, ¬ (((l.setLive storage []).release storage).setObject b none).Owns b s := by
    rintro s ⟨o', there, _⟩
    simp [setObject] at there
  refine accounted.changeOne (· = storage) ?_ ?_ ?_ ?_ ?_ ?_ ?_ ?_ ?_
  · intro r different
    simp [setObject, different]
  · intro s untouched
    constructor
    · rw [setObject_live, release_live, setLive_live_other untouched]
    · rintro k rfl
      rw [setObject_blocks, release_blocks_other (Ne.symm untouched), setLive_blocks]
  · rintro r s rfl owns
    exact accounted.apart r b s owns housed.owns
  · intro s owns
    exact housed.owns_iff.mp owns
  · intro s owns
    exact (nothing s owns).elim
  · intro list' entry
    cases entry
  · intro _
    simp [setObject]
  · rintro s rfl _
    constructor
    · rw [setObject_live, release_live, setLive_live]
    · rintro k rfl
      exact Function.update_self _ _ _
  · rw [accounted.entry housed]
    simp [setObject, setLive, elementCount, housed.live]

end Accounted

end Layout

end Signals2
