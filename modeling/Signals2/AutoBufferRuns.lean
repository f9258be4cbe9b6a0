/-
Any sequence of operations on any number of buffers, against the plain list model.
-/

import Signals2.AutoBufferExchange

namespace Signals2

open FalliblePrograms FalliblePrograms.Program AutoBuffer

variable {t : BufferTemplate}

/-- What a client does with its buffers; the arguments are not parts of a buffer. -/
inductive BufferOp (t : BufferTemplate) where
  | defaultConstruct (b : Nat)
  | capacityConstruct (b capacityArg : Nat)
  | fillConstruct (b sizeArg : Nat) (initValue : t.T)
  | rangeConstruct (b : Nat) (pointers : Bool) (values : List t.T)
  | copyConstruct (b r : Nat)
  | pushBackDefault (b : Nat)
  | pushBack (b : Nat) (x : t.T)
  | pushBackRange (b : Nat) (pointers : Bool) (values : List t.T)
  | reserve (b n : Nat)
  | reservePrecisely (b n : Nat)
  | popBack (b : Nat)
  | popBackN (b n : Nat)
  | clear (b : Nat)
  | assign (b r : Nat)
  | swap (b r : Nat)
  | shrinkToFit (b : Nat)
  | destruct (b : Nat)

namespace BufferOp

def perform : BufferOp t → Buffered t Unit
  | .defaultConstruct b => AutoBuffer.defaultConstruct (.named b)
  | .capacityConstruct b capacityArg => AutoBuffer.capacityConstruct (.named b) capacityArg
  | .fillConstruct b sizeArg initValue => AutoBuffer.fillConstruct (.named b) sizeArg initValue
  | .rangeConstruct b pointers values => AutoBuffer.rangeConstruct (.named b) pointers values
  | .copyConstruct b r => AutoBuffer.copyConstruct (.named b) (.named r)
  | .pushBackDefault b => AutoBuffer.pushBackDefault (.named b)
  | .pushBack b x => AutoBuffer.pushBack (.named b) x
  | .pushBackRange b pointers values => AutoBuffer.pushBackRange (.named b) pointers values
  | .reserve b n => AutoBuffer.reserve (.named b) n
  | .reservePrecisely b n => AutoBuffer.reservePrecisely (.named b) n
  | .popBack b => AutoBuffer.popBack (.named b)
  | .popBackN b n => AutoBuffer.popBackN (.named b) n
  | .clear b => AutoBuffer.clear (.named b)
  | .assign b r => AutoBuffer.assign (.named b) (.named r)
  | .swap b r => AutoBuffer.swap (.named b) (.named r)
  | .shrinkToFit b => AutoBuffer.shrinkToFit (.named b)
  | .destruct b => AutoBuffer.destruct (.named b)

/-- A new list under a name that is not in use. -/
def create (lists : Contents t) (b : Nat) (list : List t.T) : Option (Contents t) :=
  match lists (.named b) with
  | none => some (Function.update lists (.named b) (some list))
  | some _ => none

/-- Another list in the place of one. -/
def change (lists : Contents t) (b : Nat) (next : List t.T → Option (List t.T)) :
    Option (Contents t) :=
  match lists (.named b) with
  | none => none
  | some list => (next list).map fun list' => Function.update lists (.named b) (some list')

/-- The list model: what an operation does to the lists, if it may be called at all. -/
def model (lists : Contents t) : BufferOp t → Option (Contents t)
  | .defaultConstruct b => create lists b []
  | .capacityConstruct b _ => create lists b []
  | .fillConstruct b sizeArg initValue => create lists b (List.replicate sizeArg initValue)
  | .rangeConstruct b _ values => create lists b values
  | .copyConstruct b r => (lists (.named r)).bind fun list => create lists b list
  | .pushBackDefault b => change lists b fun list => some (list ++ [defaultElement t])
  | .pushBack b x => change lists b fun list => some (list ++ [x])
  | .pushBackRange b _ values => change lists b fun list => some (list ++ values)
  | .reserve b _ => change lists b some
  | .reservePrecisely b _ => change lists b some
  | .popBack b => change lists b fun list => if list.length = 0 then none else some list.dropLast
  | .popBackN b n => change lists b fun list =>
      if n ≤ list.length then some (list.take (list.length - n)) else none
  | .clear b => change lists b fun _ => some []
  | .assign b r => (lists (.named r)).bind fun other => change lists b fun _ => some other
  | .swap b r => (lists (.named b)).bind fun list => (lists (.named r)).map fun other =>
      Function.update (Function.update lists (.named r) (some list)) (.named b) (some other)
  | .shrinkToFit b => change lists b some
  | .destruct b => (lists (.named b)).map fun _ => Function.update lists (.named b) none

def performAll : List (BufferOp t) → Buffered t Unit
  | [] => pure ()
  | op :: rest => do
      op.perform
      performAll rest

def modelAll (lists : Contents t) : List (BufferOp t) → Option (Contents t)
  | [] => some lists
  | op :: rest => (op.model lists).bind fun lists' => modelAll lists' rest

end BufferOp

variable {w : Others t} {lists lists' : Contents t} {b r : Nat} {o : AutoBuffer}
variable {list list' : List t.T} {m m' : BufferMemory t}

/-- The memory holds buffers for these lists. -/
def Follows (throws : Nat → Bool) (lists : Contents t) (m : BufferMemory t) : Prop :=
  ∃ w : Others t, Stores w m ∧ w.lists = lists ∧ w.throws = throws

theorem Others.quiet (calm : w.throws = fun _ => false) : ¬ w.MayThrow := by
  rintro ⟨n, thrown⟩
  rw [calm] at thrown
  cases thrown

theorem Keeps.follows {name : BufferName} (keeps : Keeps w name o list m) :
    Follows w.throws (Function.update w.lists name (some list)) m :=
  ⟨w.put name o list, keeps_iff_stores.mp keeps, rfl, rfl⟩

theorem temporary_ne (b : Nat) : BufferName.temporary ≠ .named b := by
  intro same
  cases same

namespace BufferOp

theorem create_eq (created : create lists b list = some lists') :
    lists (.named b) = none ∧ lists' = Function.update lists (.named b) (some list) := by
  unfold create at created
  split at created
  · rename_i absent
    rw [Option.some.injEq] at created
    exact ⟨absent, created.symm⟩
  · cases created

theorem change_eq {next : List t.T → Option (List t.T)} (changed : change lists b next = some lists') :
    ∃ list list', lists (.named b) = some list ∧ next list = some list' ∧
      lists' = Function.update lists (.named b) (some list') := by
  unfold change at changed
  split at changed
  · cases changed
  · rename_i list there
    obtain ⟨list', same, result⟩ := Option.map_eq_some_iff.mp changed
    exact ⟨list, list', there, same, result.symm⟩

/-- The local buffers of the functions are not the client's. -/
theorem model_temporary {op : BufferOp t} (enabled : op.model lists = some lists')
    (absent : lists .temporary = none) : lists' .temporary = none := by
  have updated : ∀ b entry, Function.update lists (.named b) entry .temporary = none := by
    intro b entry
    rw [Function.update_of_ne (temporary_ne b)]
    exact absent
  have created : ∀ {b list}, create lists b list = some lists' → lists' .temporary = none := by
    intro b list created
    rw [(create_eq created).2]
    exact updated b _
  have changed : ∀ {b next}, change lists b next = some lists' → lists' .temporary = none := by
    intro b next changed
    obtain ⟨_, list', _, _, result⟩ := change_eq changed
    rw [result]
    exact updated b _
  cases op with
  | copyConstruct b r =>
      obtain ⟨list, _, made⟩ := Option.bind_eq_some_iff.mp enabled
      exact created made
  | assign b r =>
      obtain ⟨other, _, made⟩ := Option.bind_eq_some_iff.mp enabled
      exact changed made
  | swap b r =>
      obtain ⟨list, _, made⟩ := Option.bind_eq_some_iff.mp enabled
      obtain ⟨other, _, result⟩ := Option.map_eq_some_iff.mp made
      rw [← result, Function.update_of_ne (temporary_ne b)]
      exact updated r _
  | destruct b =>
      obtain ⟨list, _, result⟩ := Option.map_eq_some_iff.mp enabled
      rw [← result]
      exact updated b _
  | defaultConstruct | capacityConstruct | fillConstruct | rangeConstruct => exact created enabled
  | pushBackDefault | pushBack | pushBackRange | reserve | reservePrecisely | popBack | popBackN
  | clear | shrinkToFit => exact changed enabled

/-! ### One operation -/

theorem create_spec {make : Buffered t Unit}
    (created : create w.lists b list = some lists')
    (makes : w.lists (.named b) = none →
      Spec make m (fun _ m' => ∃ o, Keeps w (.named b) o list m') fun _ => w.MayThrow) :
    Spec make m (fun _ m' => Follows w.throws lists' m') fun _ => w.MayThrow := by
  obtain ⟨absent, result⟩ := create_eq created
  refine (makes absent).mono ?_ fun _ => id
  rintro _ m' ⟨o, keeps⟩
  rw [result]
  exact keeps.follows

theorem change_spec {next : List t.T → Option (List t.T)} {make : Buffered t Unit}
    (stores : Stores w m) (changed : change w.lists b next = some lists')
    (makes : ∀ o list list', w.lists (.named b) = some list → Keeps w (.named b) o list m →
      next list = some list' →
      Spec make m (fun _ m' => ∃ o', Keeps w (.named b) o' list' m') fun _ => w.MayThrow) :
    Spec make m (fun _ m' => Follows w.throws lists' m') fun _ => w.MayThrow := by
  obtain ⟨list, list', there, same, result⟩ := change_eq changed
  obtain ⟨o, _, keeps⟩ := stores.keeps there
  refine (makes o list list' there keeps same).mono ?_ fun _ => id
  rintro _ m' ⟨o', keeps'⟩
  rw [result]
  exact keeps'.follows

theorem named_ne {x y : Nat} (different : x ≠ y) : BufferName.named x ≠ .named y :=
  fun same => different (BufferName.named.inj same)

/-- Two buffers of the client, seen together. -/
theorem keeps_pair {r : Nat} {list other : List t.T} (stores : Stores w m)
    (left : w.lists (.named b) = some list) (right : w.lists (.named r) = some other) :
    ∃ o q, w.objects (.named r) = some q ∧ Keeps (w.put (.named r) q other) (.named b) o list m := by
  obtain ⟨o, _, keeps⟩ := stores.keeps left
  obtain ⟨q, object, _⟩ := stores.keeps right
  refine ⟨o, q, object, ?_⟩
  rw [Others.put_same object right]
  exact keeps

/-- Every operation does to the buffers what the model does to the lists. -/
theorem perform_spec {op : BufferOp t} (lawful : ∀ b r, op = .swap b r →
      t.traits.trivialAssign = true → t.traits.trivialDestructor = true)
    (stores : Stores w m) (absent : w.lists .temporary = none)
    (enabled : op.model w.lists = some lists') :
    Spec op.perform m (fun _ m' => Follows w.throws lists' m') fun _ => w.MayThrow := by
  cases op with
  | defaultConstruct b =>
      exact create_spec enabled fun free => defaultConstruct_spec stores free
  | capacityConstruct b capacityArg =>
      refine create_spec enabled fun free => ?_
      refine (capacityConstruct_spec stores free capacityArg).mono ?_ fun _ thrown => thrown.1
      rintro _ m' ⟨p, keeps⟩
      exact ⟨_, keeps⟩
  | fillConstruct b sizeArg initValue =>
      exact create_spec enabled fun free => fillConstruct_spec stores free sizeArg initValue
  | rangeConstruct b pointers values =>
      exact create_spec enabled fun free => rangeConstruct_spec stores free pointers values
  | copyConstruct b r =>
      obtain ⟨list, source, made⟩ := Option.bind_eq_some_iff.mp enabled
      exact create_spec made fun free => copyConstruct_spec stores free source
  | pushBackDefault b =>
      refine change_spec stores enabled fun o list list' there keeps same => ?_
      rw [← Option.some.inj same]
      exact (pushBackDefault_spec keeps).mono (fun _ _ => id) fun _ leaves => leaves.1
  | pushBack b x =>
      refine change_spec stores enabled fun o list list' there keeps same => ?_
      rw [← Option.some.inj same]
      exact (pushBack_spec keeps x).mono (fun _ _ => id) fun _ leaves => leaves.1
  | pushBackRange b pointers values =>
      refine change_spec stores enabled fun o list list' there keeps same => ?_
      rw [← Option.some.inj same]
      exact (pushBackRange_spec keeps pointers values).mono (fun _ _ => id) fun _ leaves => leaves.1
  | reserve b n =>
      refine change_spec stores enabled fun o list list' there keeps same => ?_
      rw [← Option.some.inj same]
      refine (reserve_spec keeps n).mono ?_ fun _ thrown => thrown.1
      rintro _ m' ⟨p, keeps'⟩
      exact ⟨_, keeps'⟩
  | reservePrecisely b n =>
      refine change_spec stores enabled fun o list list' there keeps same => ?_
      rw [← Option.some.inj same]
      refine (reservePrecisely_spec keeps n).mono ?_ fun _ thrown => thrown.1
      rintro _ m' ⟨p, keeps'⟩
      exact ⟨_, keeps'⟩
  | popBack b =>
      refine change_spec stores enabled fun o list list' there keeps same => ?_
      split at same
      · cases same
      · rename_i some_
        rw [← Option.some.inj same]
        have nonempty : list ≠ [] := fun nothing => some_ (by rw [nothing]; rfl)
        exact (popBack_spec keeps nonempty).mono (fun _ m' keeps' => ⟨_, keeps'⟩) fun _ => id
  | popBackN b n =>
      refine change_spec stores enabled fun o list list' there keeps same => ?_
      split at same
      · rename_i enough
        rw [← Option.some.inj same]
        exact (popBackN_spec keeps enough).mono (fun _ m' keeps' => ⟨_, keeps'⟩) fun _ => id
      · cases same
  | clear b =>
      refine change_spec stores enabled fun o list list' there keeps same => ?_
      rw [← Option.some.inj same]
      exact (clear_spec keeps).mono (fun _ m' keeps' => ⟨_, keeps'⟩) fun _ => id
  | shrinkToFit b =>
      refine change_spec stores enabled fun o list list' there keeps same => ?_
      rw [← Option.some.inj same]
      exact (shrinkToFit_spec keeps).mono (fun _ _ => id) fun _ thrown => thrown.1
  | assign b r =>
      obtain ⟨other, source, made⟩ := Option.bind_eq_some_iff.mp enabled
      refine change_spec stores made fun o list list' there keeps same => ?_
      rw [← Option.some.inj same]
      by_cases self : b = r
      · subst self
        have unchanged : other = list := Option.some.inj (source.symm.trans there)
        subst unchanged
        exact (assign_self keeps).mono (fun _ m' keeps' => ⟨o, keeps'⟩) fun _ => id
      · obtain ⟨o', q, object, pair⟩ := keeps_pair stores there source
        refine (assign_spec (named_ne self) pair).mono ?_ ?_
        · rintro _ m' ⟨o'', keeps'⟩
          rw [Others.put_same object source] at keeps'
          exact ⟨o'', keeps'⟩
        · intro m' fails
          by_cases fits : other.length ≤ o'.capacity
          · exact (fails.1 fits).1
          · exact (fails.2 (Nat.not_le.mp fits)).1
  | swap b r =>
      obtain ⟨list, left, made⟩ := Option.bind_eq_some_iff.mp enabled
      obtain ⟨other, right, result⟩ := Option.map_eq_some_iff.mp made
      by_cases self : b = r
      · subst self
        have unchanged : other = list := Option.some.inj (right.symm.trans left)
        subst unchanged
        obtain ⟨o, _, keeps⟩ := stores.keeps left
        refine (swap_self (Ne.symm (temporary_ne b)) absent keeps).mono ?_ fun _ => id
        intro _ m' keeps'
        rw [← result, Function.update_idem]
        exact keeps'.follows
      · obtain ⟨o, q, object, pair⟩ := keeps_pair stores left right
        refine (swap_spec (lawful b r rfl) (named_ne self) (Ne.symm (temporary_ne b))
          (Ne.symm (temporary_ne r)) absent pair).mono ?_ fun _ => id
        rintro _ m' ⟨o', q', keeps'⟩
        rw [← result]
        exact keeps'.follows
  | destruct b =>
      obtain ⟨list, there, result⟩ := Option.map_eq_some_iff.mp enabled
      obtain ⟨o, _, keeps⟩ := stores.keeps there
      refine (destruct_spec keeps).mono ?_ fun _ => id
      intro _ m' stores'
      rw [← result]
      exact ⟨_, stores', rfl, rfl⟩

/-! ### All operations -/

theorem performAll_spec
    (lawful : t.traits.trivialAssign = true → t.traits.trivialDestructor = true)
    {ops : List (BufferOp t)} {throws : Nat → Bool} (follows : Follows throws lists m)
    (absent : lists .temporary = none) (enabled : modelAll lists ops = some lists') :
    Spec (performAll ops) m (fun _ m' => Follows throws lists' m') fun _ => ∃ n, throws n = true := by
  induction ops generalizing m lists with
  | nil =>
      rw [modelAll, Option.some.injEq] at enabled
      subst enabled
      exact follows
  | cons op rest ih =>
      obtain ⟨middle, first, later⟩ := Option.bind_eq_some_iff.mp enabled
      obtain ⟨w, stores, rfl, rfl⟩ := follows
      refine (perform_spec (fun _ _ _ => lawful) stores absent first).bind
        (fun _ m₁ follows₁ => ?_) fun _ => id
      exact ih follows₁ (model_temporary first absent) later

end BufferOp

/-- What throws may be chosen anew. -/
theorem Follows.failing {throws : Nat → Bool} (follows : Follows throws lists m)
    (throws' : Nat → Bool) : Follows throws' lists (m.failing throws') := by
  obtain ⟨w, ⟨l, shows, accounted, objects, _⟩, rfl, _⟩ := follows
  let planned : Layout t := { l with throws := throws' }
  have shown : Shows (m.failing throws') planned :=
    { shows with
      throws := rfl
      fits := shows.fits }
  have houses : ∀ name list, w.lists name = some list →
      ∃ o storage, planned.Housed name o storage list := by
    intro name list entry
    obtain ⟨o, storage, housed⟩ := accounted.houses name list entry
    exact ⟨o, storage, { housed with holds := housed.holds }⟩
  exact ⟨{ w with throws := throws' },
    ⟨planned, shown, { accounted with houses := houses }, objects, rfl⟩, rfl, rfl⟩

/-- A buffer of the client, with those beside it. -/
theorem Follows.keeps {throws : Nat → Bool} (follows : Follows throws lists m)
    (entry : lists (.named b) = some list) (object : m.objects (.named b) = some o) :
    ∃ w : Others t, w.lists = lists ∧ w.throws = throws ∧ Keeps w (.named b) o list m := by
  obtain ⟨w, stores, same, plan⟩ := follows
  subst same
  obtain ⟨o', object', keeps⟩ := stores.keeps entry
  obtain ⟨l, shows, _, objects, _⟩ := stores
  rw [shows.objects, objects, object', Option.some.injEq] at object
  subst object
  exact ⟨w, rfl, plan, keeps⟩

/-! ### What the memory says -/

/-- The memory holds just the buffers of the lists.  Each is valid, with its elements in the
storage that belongs to its capacity; no other element has been constructed and not
destroyed, and no other block allocated and not freed. -/
structure Exact (lists : Contents t) (m : BufferMemory t) : Prop where
  gone : ∀ b, lists b = none → m.objects b = none
  buffers : ∀ b list, lists b = some list → ∃ o storage, m.objects b = some o ∧
    o.isValid t b = true ∧ o.buffer = some storage ∧ (storage = .internal b ↔ o.capacity = t.N) ∧
    o.size = list.length ∧ o.size ≤ o.capacity ∧ ∀ i < list.length, m.cells storage i = list[i]?
  apart : ∀ b r o q, m.objects b = some o → m.objects r = some q → o.buffer = q.buffer → b = r
  elements : t.traits.trivialDestructor = false → ∀ storage i, (m.cells storage i).isSome →
    ∃ b o, m.objects b = some o ∧ o.buffer = some storage ∧ i < o.size
  destroyed : t.traits.trivialDestructor = false → Total lists (m.constructed - m.destroyed)
  blocks : ∀ k c, m.blocks k = some c ↔
    ∃ b o, m.objects b = some o ∧ o.buffer = some (.block k) ∧ o.capacity = c

theorem Follows.exact {throws : Nat → Bool} (follows : Follows throws lists m) : Exact lists m := by
  obtain ⟨w, ⟨l, shows, accounted, objects, _⟩, rfl, rfl⟩ := follows
  refine
    { gone := ?_
      buffers := ?_
      apart := ?_
      elements := ?_
      destroyed := ?_
      blocks := ?_ }
  · intro b absent
    rw [shows.objects]
    exact accounted.gone b absent
  · intro b list entry
    obtain ⟨o, storage, housed⟩ := accounted.houses b list entry
    refine ⟨o, storage, ?_, housed.isValid, housed.buffer, housed.internal_iff, housed.size, ?_, ?_⟩
    · rw [shows.objects]
      exact housed.object
    · rw [housed.size]
      exact housed.fits
    · intro i inside
      have live := housed.live
      subst live
      exact shows.cells storage i inside
  · intro b r o q left right same
    rw [shows.objects] at left right
    obtain ⟨storage, list, _, housed⟩ := accounted.housed left
    exact accounted.apart b r storage housed.owns ⟨q, right, by rw [← same, housed.buffer]⟩
  · intro runs storage i there
    have inside : i < (l.live storage).length := by
      by_contra outside
      rw [shows.beyond runs storage i (Nat.not_lt.mp outside)] at there
      cases there
    obtain ⟨b, owns⟩ : ∃ b, l.Owns b storage := by
      by_contra nobody
      rw [accounted.idle storage fun b owns => nobody ⟨b, owns⟩] at inside
      cases inside
    obtain ⟨o, list, _, housed⟩ := accounted.owner owns
    refine ⟨b, o, ?_, housed.buffer, ?_⟩
    · rw [shows.objects]
      exact housed.object
    · rw [housed.size, ← housed.live]
      exact inside
  · intro runs
    have counted := shows.counted runs
    have same : (m.constructed : Int) - m.destroyed = l.count := by omega
    rw [same]
    exact accounted.total
  · intro k c
    rw [shows.blocks, shows.objects]
    constructor
    · intro allocated
      obtain ⟨b, owns⟩ : ∃ b, l.Owns b (.block k) := by
        by_contra nobody
        rw [accounted.freed k fun b owns => nobody ⟨b, owns⟩] at allocated
        cases allocated
      obtain ⟨o, list, _, housed⟩ := accounted.owner owns
      have capacity := housed.holds.2
      rw [allocated, Option.some.injEq] at capacity
      exact ⟨b, o, housed.object, housed.buffer, capacity.symm⟩
    · rintro ⟨b, o, there, buffer, rfl⟩
      obtain ⟨storage, list, _, housed⟩ := accounted.housed there
      have same := housed.buffer
      rw [buffer, Option.some.injEq] at same
      subst same
      exact housed.holds.2

/-- The elements that a buffer has in its storage. -/
def BufferMemory.elements (m : BufferMemory t) (b : BufferName) : List (Option t.T) :=
  match m.objects b with
  | none => []
  | some o =>
      match o.buffer with
      | none => []
      | some storage => (List.range o.size).map (m.cells storage)

theorem Exact.elements_eq {name : BufferName} (exact_ : Exact lists m)
    (entry : lists name = some list) : m.elements name = list.map some := by
  obtain ⟨o, storage, object, _, buffer, _, size, _, cells⟩ := exact_.buffers name list entry
  have same : m.elements name = (List.range list.length).map (m.cells storage) := by
    simp only [BufferMemory.elements, object, buffer, size]
  rw [same]
  refine List.ext_getElem (by simp) fun i inside _ => ?_
  rw [List.length_map, List.length_range] at inside
  simp [cells i inside, inside]

/-- The memory determines the lists. -/
theorem Exact.unique (exact_ : Exact lists m) (exact' : Exact lists' m) : lists = lists' := by
  have agree : ∀ {lists lists' : Contents t}, Exact lists m → Exact lists' m →
      ∀ name list, lists name = some list → lists' name = some list := by
    intro lists lists' left right name list entry
    obtain ⟨o, _, object, _⟩ := left.buffers name list entry
    cases entry' : lists' name with
    | none =>
        rw [right.gone name entry'] at object
        cases object
    | some list' =>
        have same : list.map some = list'.map some :=
          (left.elements_eq entry).symm.trans (right.elements_eq entry')
        rw [(List.map_inj_right fun _ _ => Option.some.inj).mp same]
  funext name
  cases entry : lists name with
  | some list => exact (agree exact_ exact' name list entry).symm
  | none =>
      cases entry' : lists' name with
      | none => rfl
      | some list' =>
          have there := agree exact' exact_ name list' entry'
          rw [entry] at there
          cases there

theorem follows_start (t : BufferTemplate) (throws : Nat → Bool) :
    Follows throws (fun _ => none) (BufferMemory.start t throws) := by
  let empty : Layout t :=
    { objects := fun _ => none
      blocks := fun _ => none
      live := fun _ => []
      count := 0
      throws := throws }
  have shows : Shows (BufferMemory.start t throws) empty :=
    { objects := rfl
      blocks := rfl
      throws := rfl
      cells := by
        intro storage i inside
        cases inside
      beyond := fun _ _ _ _ => rfl
      counted := fun _ => rfl
      fits := fun _ => Nat.zero_le _
      fresh := fun _ _ => rfl }
  have accounted : empty.Accounted fun _ => none :=
    { houses := by
        intro b list entry
        cases entry
      gone := fun _ _ => rfl
      apart := by
        rintro b r storage ⟨o, there, _⟩
        cases there
      idle := fun _ _ => rfl
      freed := fun _ _ => rfl
      total := Total.empty }
  exact ⟨{ objects := fun _ => none, lists := fun _ => none, throws := throws },
    ⟨empty, shows, accounted, rfl, rfl⟩, rfl, rfl⟩

/-- When nothing throws, what is specified is what happens. -/
theorem returned_of_calm {Value : Type} {program : Buffered t Value}
    {returns : Value → BufferMemory t → Prop} (follows : Follows (fun _ => false) lists m)
    (spec : Spec program (m.failing fun _ => false) returns
      fun _ => ∃ n, (fun _ : Nat => false) n = true) :
    ∃ value m', program m = .returned value m' ∧ returns value m' := by
  obtain ⟨w, ⟨l, shows, _, _, throws⟩, _, same⟩ := follows
  have calm : m.failing (fun _ => false) = m := by
    rw [BufferMemory.failing, ← same, ← throws, ← shows.throws]
  rw [calm] at spec
  have sure : Spec program m returns fun _ => False :=
    spec.mono (fun _ _ => id) fun _ thrown => Bool.false_ne_true (Exists.choose_spec thrown)
  exact sure.returned

/-- Numbers with a constructor, a destructor and an assignment that count as non-trivial. -/
def sampleBuffer : BufferTemplate :=
  { T := Nat
    N := 2
    traits :=
      { trivialAssign := false
        trivialConstructor := false
        trivialDestructor := false
        nothrowCopy := false
        triviallyCopyable := false }
    initial := 0
    indeterminate := 0
    newCapacity := fun c => 4 * c
    shouldShrink := fun size capacity => size < capacity / 2
    emptyIsNull := true }

namespace BufferOp

/-- Whatever is done to the buffers, nothing goes wrong, and unless something throws they
end up as the lists do. -/
theorem performAll_exact
    (lawful : t.traits.trivialAssign = true → t.traits.trivialDestructor = true)
    (ops : List (BufferOp t)) (throws : Nat → Bool)
    (enabled : modelAll (fun _ => none) ops = some lists) :
    Spec (performAll ops) (BufferMemory.start t throws) (fun _ m' => Exact lists m')
      fun _ => ∃ n, throws n = true :=
  (performAll_spec lawful (follows_start t throws) rfl enabled).mono
    (fun _ _ follows => follows.exact) fun _ => id

def sampleOps : List (BufferOp sampleBuffer) :=
  let numbers : List Nat := [1, 2, 3]
  let four : Nat := 4
  [.rangeConstruct 0 true numbers, .defaultConstruct 1, .pushBack 1 four, .swap 0 1, .popBackN 1 2,
    .shrinkToFit 1, .copyConstruct 2 1, .assign 0 2, .destruct 2]

seal Spec in
theorem performAll_exact_sample :
    ∃ lists, modelAll (fun _ => none) sampleOps = some lists ∧
      Spec (performAll sampleOps) (BufferMemory.start sampleBuffer fun _ => false)
        (fun _ m' => Exact lists m') fun _ => ∃ n, (fun _ : Nat => false) n = true := by
  have enabled : (modelAll (fun _ => none) sampleOps).isSome = true := by decide +kernel
  obtain ⟨lists, same⟩ := Option.isSome_iff_exists.mp enabled
  have lawful : sampleBuffer.traits.trivialAssign = true →
      sampleBuffer.traits.trivialDestructor = true := by decide
  exact ⟨lists, same, performAll_exact lawful sampleOps (fun _ => false) same⟩

end BufferOp

/-! ### Three numbers -/

def threeNumbers : List sampleBuffer.T :=
  let numbers : List Nat := [1, 2, 3]
  numbers

/-- A buffer of three with room for three. -/
def threeNumbersOps : List (BufferOp sampleBuffer) := [.rangeConstruct 0 true threeNumbers]

/-- What is in the first buffer after one more step, if that returns. -/
def elementsAfter {Value : Type} (ops : List (BufferOp sampleBuffer))
    (step : Buffered sampleBuffer Value) : Option (List (Option Nat)) :=
  match (BufferOp.performAll ops >>= fun _ => step)
      (BufferMemory.start sampleBuffer fun _ => false) with
  | .returned _ m => some (m.elements (.named 0))
  | _ => none

theorem elementsAfter_eq {Value : Type} {ops : List (BufferOp sampleBuffer)}
    {step : Buffered sampleBuffer Value} {m m' : BufferMemory sampleBuffer} {value : Value}
    (outcome : BufferOp.performAll ops (BufferMemory.start sampleBuffer fun _ => false) =
      .returned () m)
    (returned : step m = .returned value m') :
    elementsAfter ops step = some (m'.elements (.named 0)) := by
  unfold elementsAfter
  rw [bind_of_returned outcome, returned]
  rfl

seal Spec in
theorem sampleOps_follow {ops : List (BufferOp sampleBuffer)} {lists : Contents sampleBuffer}
    (enabled : BufferOp.modelAll (fun _ => none) ops = some lists) :
    ∃ m, BufferOp.performAll ops (BufferMemory.start sampleBuffer fun _ => false) =
        .returned () m ∧ Follows (fun _ => false) lists m := by
  have lawful : sampleBuffer.traits.trivialAssign = true →
      sampleBuffer.traits.trivialDestructor = true := by decide
  have start := follows_start sampleBuffer fun _ => false
  obtain ⟨_, m, outcome, follows⟩ :=
    returned_of_calm start (BufferOp.performAll_spec lawful start rfl enabled)
  exact ⟨m, outcome, follows⟩

theorem threeNumbers_follow :
    ∃ m lists, BufferOp.performAll threeNumbersOps (BufferMemory.start sampleBuffer fun _ => false) =
        .returned () m ∧
      Follows (fun _ => false) lists m ∧ lists (.named 0) = some threeNumbers ∧
      lists .temporary = none := by
  obtain ⟨m, outcome, follows⟩ := @sampleOps_follow threeNumbersOps _ rfl
  exact ⟨m, _, outcome, follows, rfl, rfl⟩

end Signals2
