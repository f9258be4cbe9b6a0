/-
A connect that throws.  The internal steps that can throw are listed in the order of
the code, each with the state that the exception leaves when the lock has been
released: no handler undoes what the steps before it have done.
-/

import Signals2.Refinement
import Signals2.Sweeps

namespace Signals2

open LinkedLists

variable {σ : SignalTemplate}

/-- The internal steps of a connect that can throw. -/
inductive ThrowSite where
  -- before `nolock_connect`: the bound slot of `connect_extended`
  | boundSlot
  -- `nolock_force_unique_connection_list`: the new state with its list, map and groups
  | copyConnectionBodies
  -- a round of the cleanup: the garbage of the lock grows, `erase` compares groups
  | addTrash
  | eraseCompare
  -- the new body with its copy of the slot, and its group key
  | newConnectionBody
  | groupKey
  -- `push_back` or `push_front` up to the new list node
  | mapBound
  | listInsert
  -- the rest of `m_insert`
  | mapItEquivalent
  | insertLowerBound
  | lowerBoundEquivalent
  | mapInsert
deriving DecidableEq, Repr

/-! ### Where user code runs -/

/-- The user's comparison is called for grouped slots only. -/
def GroupKey.comparesGroups {Group : Type} (key1 key2 : GroupKey Group) : Bool :=
  key1.first = .groupedSlots && key2.first = .groupedSlots

/-- A search of the map cannot do without it then. -/
def searchCompares {Group : Type} (map : List (GroupKey Group × Iterator))
    (key : GroupKey Group) : Bool :=
  map.any fun entry => key.comparesGroups entry.1

/-- A push into a buffer of so many elements makes it grow: ten are stored in place,
and the capacity is multiplied by four. -/
def bufferFull (size : Nat) : Bool :=
  (List.range (size + 1)).any fun k => size = 10 * Nat.pow 4 k

/-! ### `m_insert` in pieces -/

namespace GroupedList

variable {Group Value : Type}

/-- The map after the test of the entry that the new node comes before. -/
def erasedMap (g : GroupedList Group Value) (mapIt : Nat) (key : GroupKey Group) :
    List (GroupKey Group × Iterator) :=
  match g.groupMap[mapIt]? with
  | none => g.groupMap
  | some entry =>
      if g.weaklyEquivalent key entry.1 then SortedMaps.eraseAt g.groupMap mapIt
      else g.groupMap

/-- The entry that is tested after the second search. -/
def lowerBoundEntry (g : GroupedList Group Value) (mapIt : Nat) (key : GroupKey Group) :
    Option (GroupKey Group × Iterator) :=
  let erased := g.erasedMap mapIt key
  erased[SortedMaps.lowerBound (groupKeyLess g.mapCompare) erased key]?

/-- The map iterator that `push_front` or `push_back` gives to `m_insert`. -/
def pushMapIt (g : GroupedList Group Value) (position : ConnectPosition)
    (key : GroupKey Group) : Nat :=
  match position with
  | .atFront =>
      if key.first = .frontUngroupedSlots then 0
      else SortedMaps.lowerBound (groupKeyLess g.mapCompare) g.groupMap key
  | .atBack =>
      if key.first = .backUngroupedSlots then g.groupMap.length
      else SortedMaps.upperBound (groupKeyLess g.mapCompare) g.groupMap key

theorem mInsertMap_eq (g : GroupedList Group Value) (mapIt : Nat) (key : GroupKey Group)
    (newIt : Iterator) :
    g.mInsertMap mapIt key newIt =
      match g.lowerBoundEntry mapIt key with
      | none =>
          SortedMaps.insertEntry (groupKeyLess g.mapCompare) (g.erasedMap mapIt key) (key, newIt)
      | some entry =>
          if g.weaklyEquivalent entry.1 key = false then
            SortedMaps.insertEntry (groupKeyLess g.mapCompare) (g.erasedMap mapIt key) (key, newIt)
          else g.erasedMap mapIt key := rfl

end GroupedList

namespace World

theorem pushConnection_eq (list : GroupedList σ.Group BodyId) (arguments : ConnectArguments σ)
    (b : BodyId) :
    pushConnection list arguments b =
      list.mInsert (list.pushMapIt arguments.position (groupKeyOf arguments))
        (groupKeyOf arguments) b := by
  unfold pushConnection GroupedList.pushMapIt
  cases arguments.position <;> rfl

variable (w : World σ)

/-! ### What an exception leaves -/

/-- An exception in a round of the cleanup.  A slot that `release_slot` has taken out of
its body and that the garbage does not take is destroyed. -/
def roundThrows (list : GroupedList σ.Group BodyId) (b : BodyId) : ThrowSite → Option (World σ)
  | .addTrash =>
      let checked := w.checkExpired true b
      if checked.garbage ≠ w.garbage ∧ bufferFull w.garbage.length = true then
        some { checked with garbage := w.garbage }.unlock
      else none
  | .eraseCompare =>
      let checked := w.checkExpired true b
      if (checked.bodies b).connected = false ∧
          searchCompares list.groupMap (checked.bodies b).groupKey = true then
        some checked.unlock
      else none
  | _ => none

/-- The key that the new body has before `push_back` or `push_front` returns: without a
group it is still the default-constructed one. -/
def keyBeforePush (arguments : ConnectArguments σ) : GroupKey σ.Group :=
  match arguments.group with
  | some group => .groupedSlots group
  | none => .frontUngroupedSlots

/-- The new body has its list node, and this is the map. -/
def listInserted (impl : SignalImpl) (arguments : ConnectArguments σ)
    (map : List (GroupKey σ.Group × Iterator)) : World σ :=
  let list := w.heap.connectionBodies impl
  let place := list.getListIterator (list.pushMapIt arguments.position (groupKeyOf arguments))
  { w with
    toBodyStore := w.toBodyStore.newConnectionBody arguments.slot (keyBeforePush arguments)
    heap := w.heap.setConnectionBodies impl
      { list with list := list.list.insert place w.nextBody, groupMap := map } }

/-- A connect that does not throw goes through this state, too. -/
theorem insertConnection_eq (impl : SignalImpl) (arguments : ConnectArguments σ) :
    let list := w.heap.connectionBodies impl
    let inserted := w.listInserted impl arguments
      (list.mInsertMap (list.pushMapIt arguments.position (groupKeyOf arguments))
        (groupKeyOf arguments) list.list.upcoming)
    w.insertConnection impl arguments = inserted.setBody w.nextBody
      { inserted.bodies w.nextBody with groupKey := groupKeyOf arguments } := by
  simp only [insertConnection, pushConnection_eq, listInserted, setBody, BodyStore.setBody,
    BodyStore.newConnectionBody, Function.update_idem, Function.update_self]
  rfl

/-- An exception after the cleanup, with its position saved. -/
def insertThrows (impl : SignalImpl) (arguments : ConnectArguments σ) :
    ThrowSite → Option (World σ) :=
  let list := w.heap.connectionBodies impl
  let key := groupKeyOf arguments
  let mapIt := list.pushMapIt arguments.position key
  fun
  | .newConnectionBody => some w.unlock
  | .groupKey => if arguments.group.isSome then some w.unlock else none
  | .mapBound => if searchCompares list.groupMap key then some w.unlock else none
  | .listInsert => some w.unlock
  | .mapItEquivalent =>
      if list.groupMap[mapIt]?.any fun entry => key.comparesGroups entry.1 then
        some (w.listInserted impl arguments list.groupMap).unlock
      else none
  | .insertLowerBound =>
      if searchCompares (list.erasedMap mapIt key) key then
        some (w.listInserted impl arguments (list.erasedMap mapIt key)).unlock
      else none
  | .lowerBoundEquivalent =>
      if (list.lowerBoundEntry mapIt key).any fun entry => key.comparesGroups entry.1 then
        some (w.listInserted impl arguments (list.erasedMap mapIt key)).unlock
      else none
  | .mapInsert =>
      if (list.lowerBoundEntry mapIt key).any fun entry => list.weaklyEquivalent entry.1 key then
        none
      else some (w.listInserted impl arguments (list.erasedMap mapIt key)).unlock
  | _ => none

/-- The client that has the mutex locked for a connect throws in its next step. -/
def sectionThrows (site : ThrowSite) : Option (World σ) :=
  match w.critical, w.heap.impl with
  | some (.cleanupConnections it i count _ (.connect arguments)), some impl =>
      let list := w.heap.connectionBodies impl
      if it ≠ list.past ∧ (count = 0 ∨ i < count) then
        (list.list.value? it).bind fun b => w.roundThrows list b site
      else
        let saved := w.setHeap (w.heap.setGarbageCollectorIt impl it)
        saved.insertThrows { impl with garbageCollectorIt := it } arguments site
  | _, _ => none

/-- A call of `connect` or `connect_extended` that throws at this site, for a site in
the cleanup after so many of its rounds. -/
def connectThrows (arguments : ConnectArguments σ) (rounds : Nat) (site : ThrowSite) :
    Option (World σ) :=
  match site with
  | .boundSlot =>
      match arguments.slot.slotFunction with
      | .plain _ => none
      | .boundExtended _ => (w.step (.connect arguments)).map fun _ => w.unlock
  | .copyConnectionBodies =>
      (w.step (.connect arguments)).bind fun _ =>
        if w.heap.impl.any fun impl => w.unique impl.sharedState then none else some w.unlock
  | _ =>
      (Runs.run World.step w (.connect arguments :: List.replicate rounds .section)).bind
        fun reached => if reached.fault.isSome then none else reached.sectionThrows site

end World

/-! ### The machine with connects that throw -/

inductive FallibleAction (σ : SignalTemplate) where
  | does (action : Action σ)
  | connectThrows (arguments : ConnectArguments σ) (rounds : Nat) (site : ThrowSite)

def World.fallibleStep (w : World σ) : FallibleAction σ → Option (World σ)
  | .does action => w.step action
  | .connectThrows arguments rounds site => w.connectThrows arguments rounds site

namespace World

/-! ### What a connect that throws should leave -/

variable {σ : SignalTemplate}

/-- The strong guarantee, from the state before a call to the state after it. -/
structure StrongGuarantee (compare : σ.Group → σ.Group → Bool) (w w' : World σ) : Prop where
  sequence : w'.liveConnections = w.liveConnections
  -- the new slot is not there to be called
  uncalled : ∀ b ∈ w'.currentBodies, b ∈ w.currentBodies
  consistent : ∀ impl, w'.heap.impl = some impl →
    (w'.heap.connectionBodies impl).Consistent compare w'.keyOf
  position : ∀ impl, w'.heap.impl = some impl →
    (w'.heap.connectionBodies impl).list.Valid impl.garbageCollectorIt
  -- later cleanups end as they should
  swept : w'.Swept compare

/-- Nothing is inserted yet, and the saved position has neither been left behind in
another list nor been erased. -/
def harmless (w : World σ) (rounds : Nat) : ThrowSite → Bool
  | .boundSlot | .copyConnectionBodies => true
  | .newConnectionBody | .groupKey | .mapBound | .listInsert => true
  | .addTrash | .eraseCompare =>
      w.heap.impl.any fun impl =>
        let list := (w.heap.connectionBodies impl).list
        w.unique impl.sharedState &&
          (rounds = 0 || impl.garbageCollectorIt = list.past ||
            (list.value? impl.garbageCollectorIt).any w.live)
  | .mapItEquivalent | .insertLowerBound | .lowerBoundEquivalent | .mapInsert => false

/-- What the signal does otherwise, its destruction included, is not restricted. -/
def ThrowsHarmlessly (w : World σ) : FallibleAction σ → Bool
  | .does _ => true
  | .connectThrows _ rounds site => w.harmless rounds site

end World

end Signals2
