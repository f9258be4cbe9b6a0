/-
`auto_buffer`: elements in storage of its own up to `N` of them, in a heap block beyond
that.  The memory knows where an element lives, which blocks are allocated and with which
capacity; a misuse of either is a fault.

Sizes and positions are natural numbers.  No two buffers and ranges that exist are so
large that `size_type` could not count them together; the count of `insert` is the one
number that nothing bounds.
-/

import Mathlib.Logic.Function.Basic
import Signals2.Library.FalliblePrograms

namespace Signals2

open FalliblePrograms FalliblePrograms.Program

/-- What the type traits say of the elements. -/
structure ElementTraits where
  trivialAssign : Bool
  trivialConstructor : Bool
  trivialDestructor : Bool
  nothrowCopy : Bool
  triviallyCopyable : Bool

/-- The template arguments.  `initial` is `T()`, `indeterminate` what a trivial default
constructor leaves; `emptyIsNull` says whether the address of a storage for no element is
a null pointer. -/
structure BufferTemplate where
  T : Type
  N : Nat
  traits : ElementTraits
  initial : T
  indeterminate : T
  newCapacity : Nat → Nat
  shouldShrink : Nat → Nat → Bool
  emptyIsNull : Bool

/-- Buffers are variables of the client; the functions of the class have one local
buffer at most. -/
inductive BufferName where
  | named (n : Nat)
  | temporary
deriving DecidableEq, Repr

inductive Storage where
  | internal (b : BufferName)
  | block (k : Nat)
deriving DecidableEq, Repr

/-- A pointer to nothing, or the begin of a storage. -/
abbrev Pointer := Option Storage

structure AutoBuffer where
  capacity : Nat
  buffer : Pointer
  size : Nat
deriving DecidableEq, Repr

inductive BufferFault where
  | assertion
  | noObject
  | nullPointer
  | outOfRange
  | noElement
  | elementThere
  | wrongDeallocate
  | leak
deriving DecidableEq, Repr

/-- `cells` are the elements that have been constructed and not destroyed, `blocks` the
capacities of the allocated blocks; `constructed` and `destroyed` count.  `throws` says
which of the operations that may throw do, in order, and `ticks` how many there have
been. -/
structure BufferMemory (t : BufferTemplate) where
  objects : BufferName → Option AutoBuffer
  cells : Storage → Nat → Option t.T
  blocks : Nat → Option Nat
  nextBlock : Nat
  constructed : Nat
  destroyed : Nat
  throws : Nat → Bool
  ticks : Nat

abbrev Buffered (t : BufferTemplate) := Program (BufferMemory t) BufferFault

variable {t : BufferTemplate}

namespace BufferMemory

def start (t : BufferTemplate) (throws : Nat → Bool) : BufferMemory t :=
  { objects := fun _ => none
    cells := fun _ _ => none
    blocks := fun _ => none
    nextBlock := 0
    constructed := 0
    destroyed := 0
    throws := throws
    ticks := 0 }

/-- The same memory, with another choice of what throws. -/
def failing (m : BufferMemory t) (throws : Nat → Bool) : BufferMemory t :=
  { m with throws := throws }

/-- How many elements the storage has room for. -/
def room (m : BufferMemory t) : Storage → Nat
  | .internal b => if (m.objects b).isSome then t.N else 0
  | .block k => (m.blocks k).getD 0

def setCell (m : BufferMemory t) (storage : Storage) (i : Nat) (cell : Option t.T) :
    BufferMemory t :=
  { m with
    cells := Function.update m.cells storage (Function.update (m.cells storage) i cell) }

/-- A storage that goes may leave no element behind that has a destructor to run. -/
def leaks (m : BufferMemory t) (storage : Storage) (capacity : Nat) : Bool :=
  !t.traits.trivialDestructor && (List.range capacity).any fun i => (m.cells storage i).isSome

end BufferMemory

namespace AutoBuffer

/-! ### Elements -/

def mayThrow : Buffered t Unit := fun m =>
  let next := { m with ticks := m.ticks + 1 }
  if m.throws m.ticks then .thrown next else .returned () next

def copyMayThrow : Buffered t Unit := if t.traits.nothrowCopy then pure () else mayThrow

def assignMayThrow : Buffered t Unit := if t.traits.trivialAssign then pure () else mayThrow

def constructorMayThrow : Buffered t Unit :=
  if t.traits.trivialConstructor then pure () else mayThrow

def readElement (where_ : Pointer) (i : Nat) : Buffered t t.T := fun m =>
  match where_ with
  | none => .failed .nullPointer
  | some storage =>
      if m.room storage ≤ i then .failed .outOfRange
      else
        match m.cells storage i with
        | none => .failed .noElement
        | some v => .returned v m

/-- Placement `new`.  An element that is still there would never be destroyed. -/
def constructElement (where_ : Pointer) (i : Nat) (v : t.T) : Buffered t Unit := fun m =>
  match where_ with
  | none => .failed .nullPointer
  | some storage =>
      if m.room storage ≤ i then .failed .outOfRange
      else if t.traits.trivialDestructor || (m.cells storage i).isNone then
        .returned () { m.setCell storage i (some v) with constructed := m.constructed + 1 }
      else .failed .elementThere

/-- A destructor call; a trivial one does nothing. -/
def destroyElement (where_ : Pointer) (i : Nat) : Buffered t Unit := fun m =>
  match where_ with
  | none => .failed .nullPointer
  | some storage =>
      if t.traits.trivialDestructor then .returned () m
      else if m.room storage ≤ i then .failed .outOfRange
      else if (m.cells storage i).isNone then .failed .noElement
      else .returned () { m.setCell storage i none with destroyed := m.destroyed + 1 }

/-- The element that is there takes the value. -/
def assignElement (where_ : Pointer) (i : Nat) (v : t.T) : Buffered t Unit := fun m =>
  match where_ with
  | none => .failed .nullPointer
  | some storage =>
      if m.room storage ≤ i then .failed .outOfRange
      else if (m.cells storage i).isNone then .failed .noElement
      else .returned () (m.setCell storage i (some v))

/-- The bytes of a value, whatever has been there. -/
def overwriteElement (where_ : Pointer) (i : Nat) (v : t.T) : Buffered t Unit := fun m =>
  match where_ with
  | none => .failed .nullPointer
  | some storage =>
      if m.room storage ≤ i then .failed .outOfRange
      else .returned () (m.setCell storage i (some v))

def readRange (where_ : Pointer) (start : Nat) : Nat → Buffered t (List t.T)
  | 0 => pure []
  | n + 1 => do
      let v ← readElement where_ start
      let rest ← readRange where_ (start + 1) n
      pure (v :: rest)

/-- `std::uninitialized_copy` and `std::uninitialized_fill`, which destroy what they have
constructed when a constructor throws. -/
def uninitializedCopy (where_ : Pointer) (start : Nat) : List t.T → Buffered t Unit
  | [] => pure ()
  | v :: rest => do
      copyMayThrow
      constructElement where_ start v
      onThrow (uninitializedCopy where_ (start + 1) rest) (destroyElement where_ start)

def memcpyConstruct (where_ : Pointer) (start : Nat) : List t.T → Buffered t Unit
  | [] => pure ()
  | v :: rest => do
      constructElement where_ start v
      memcpyConstruct where_ (start + 1) rest

/-- `copy_impl`; `pointers` says that the iterators are of type `const T*`. -/
def copyImpl (pointers : Bool) (where_ : Pointer) (start : Nat) (values : List t.T) :
    Buffered t Unit :=
  if pointers && t.traits.trivialAssign then memcpyConstruct where_ start values
  else uninitializedCopy where_ start values

def assignEach (where_ : Pointer) (start : Nat) : List t.T → Buffered t Unit
  | [] => pure ()
  | v :: rest => do
      assignMayThrow
      assignElement where_ start v
      assignEach where_ (start + 1) rest

def memcpyAssign (where_ : Pointer) (start : Nat) : List t.T → Buffered t Unit
  | [] => pure ()
  | v :: rest => do
      overwriteElement where_ start v
      memcpyAssign where_ (start + 1) rest

def assignImpl (where_ : Pointer) (start : Nat) (values : List t.T) : Buffered t Unit :=
  if t.traits.trivialAssign then memcpyAssign where_ start values
  else assignEach where_ start values

/-- `std::copy` within one storage: a `memmove` if the elements are trivially copyable,
else one assignment after the other from the front. -/
def stdCopy (where_ : Pointer) (first n dest : Nat) : Buffered t Unit :=
  if t.traits.triviallyCopyable then do
    let values ← readRange where_ first n
    memcpyAssign where_ dest values
  else
    repeatUpTo (fun k => do
      let v ← readElement where_ (first + k)
      assignMayThrow
      assignElement where_ (dest + k) v) n

/-! ### Objects and blocks -/

/-- What `size_type` counts to. -/
def sizeLimit : Nat := Nat.pow 2 64

def object (b : BufferName) : Buffered t AutoBuffer := fun m =>
  match m.objects b with
  | none => .failed .noObject
  | some o => .returned o m

def setObject (b : BufferName) (o : AutoBuffer) : Buffered t Unit :=
  modify fun m => { m with objects := Function.update m.objects b (some o) }

/-- The end of an object's life, with its storage. -/
def dropObject (b : BufferName) : Buffered t Unit := fun m =>
  if m.leaks (.internal b) t.N then .failed .leak
  else .returned () { m with objects := Function.update m.objects b none }

def newBlock (capacity : Nat) : Buffered t Pointer := fun m =>
  .returned (some (.block m.nextBlock))
    { m with
      blocks := Function.update m.blocks m.nextBlock (some capacity)
      cells := Function.update m.cells (.block m.nextBlock) fun _ => none
      nextBlock := m.nextBlock + 1 }

def freeBlock (where_ : Pointer) (capacity : Nat) : Buffered t Unit := fun m =>
  match where_ with
  | some (.block k) =>
      if m.blocks k = some capacity then
        if m.leaks (.block k) capacity then .failed .leak
        else .returned () { m with blocks := Function.update m.blocks k none }
      else .failed .wrongDeallocate
  | _ => .failed .wrongDeallocate

def allocate (b : BufferName) (capacityArg : Nat) : Buffered t Pointer :=
  if t.N < capacityArg then do
    mayThrow
    newBlock capacityArg
  else pure (some (.internal b))

def deallocate (where_ : Pointer) (capacityArg : Nat) : Buffered t Unit :=
  if capacityArg ≤ t.N then pure () else freeBlock where_ capacityArg

/-! ### The class -/

def isOnStack (t : BufferTemplate) (o : AutoBuffer) : Bool := o.capacity ≤ t.N

def full (o : AutoBuffer) : Bool := o.size = o.capacity

/-- `buffer_ == 0`. -/
def isNull (t : BufferTemplate) (o : AutoBuffer) : Bool :=
  match o.buffer with
  | none => true
  | some (.internal _) => t.emptyIsNull && t.N = 0
  | some (.block _) => false

def isValid (t : BufferTemplate) (b : BufferName) (o : AutoBuffer) : Bool :=
  if o.isNull t then true
  else if o.capacity < t.N then false
  else if o.isOnStack t = false ∧ o.capacity ≤ t.N then false
  else if o.buffer = some (.internal b) ∧ t.N < o.capacity then false
  else if o.capacity < o.size then false
  else true

def assertValid (b : BufferName) : Buffered t Unit := do
  let o ← object b
  assert .assertion (o.isValid t b)

/-- `destroy_back_n`. -/
def destroyBackN (b : BufferName) (n : Nat) : Buffered t Unit :=
  if t.traits.trivialDestructor then pure ()
  else do
    assert .assertion (0 < n)
    let o ← object b
    repeatUpTo (fun k => destroyElement o.buffer (o.size - 1 - k)) n

/-- `auto_buffer_destroy()`. -/
def autoBufferDestroy (b : BufferName) : Buffered t Unit := do
  let o ← object b
  assert .assertion (o.isValid t b)
  if o.isNull t then pure ()
  else do
    (if o.size = 0 then pure () else destroyBackN b o.size)
    deallocate o.buffer o.capacity

def moveToNewBuffer (b : BufferName) (newCapacity : Nat) : Buffered t Pointer := do
  let newBuffer ← allocate b newCapacity
  let o ← object b
  let values ← readRange o.buffer 0 o.size
  (if t.traits.nothrowCopy then copyImpl false newBuffer 0 values
    else onThrow (copyImpl false newBuffer 0 values) (deallocate newBuffer newCapacity))
  pure newBuffer

def reserveImpl (b : BufferName) (newCapacity : Nat) : Buffered t Unit := do
  let newBuffer ← moveToNewBuffer b newCapacity
  autoBufferDestroy b
  let o ← object b
  setObject b { o with buffer := newBuffer, capacity := newCapacity }
  assert .assertion (o.size ≤ newCapacity)

def newCapacityImpl (b : BufferName) (n : Nat) : Buffered t Nat := do
  let o ← object b
  assert .assertion (o.capacity < n)
  pure (max (t.newCapacity o.capacity) n)

/-! ### Construction and destruction -/

/-- The initializers of the members. -/
def construct (b : BufferName) (capacity : Nat) : Buffered t Unit := do
  let buffer ← allocate b capacity
  setObject b { capacity := capacity, buffer := buffer, size := 0 }

/-- The body of a constructor that copies elements into the new buffer.  Nothing gives
the block back when it throws. -/
def constructElements (b : BufferName) (pointers : Bool) (values : List t.T) :
    Buffered t Unit := do
  let o ← object b
  onThrow (copyImpl pointers o.buffer 0 values) (dropObject b)

def setSize (b : BufferName) (size : Nat) : Buffered t Unit := do
  let o ← object b
  setObject b { o with size := size }

def defaultConstruct (b : BufferName) : Buffered t Unit := do
  setObject b { capacity := t.N, buffer := some (.internal b), size := 0 }
  assertValid b

def copyConstruct (b r : BufferName) : Buffered t Unit := do
  let q ← object r
  construct b (max q.size t.N)
  let values ← readRange q.buffer 0 q.size
  constructElements b true values
  setSize b q.size
  assertValid b

def capacityConstruct (b : BufferName) (capacityArg : Nat) : Buffered t Unit := do
  construct b (max capacityArg t.N)
  assertValid b

def fillConstruct (b : BufferName) (sizeArg : Nat) (initValue : t.T) : Buffered t Unit := do
  construct b (max sizeArg t.N)
  constructElements b false (List.replicate sizeArg initValue)
  setSize b sizeArg
  assertValid b

def rangeConstruct (b : BufferName) (pointers : Bool) (values : List t.T) :
    Buffered t Unit := do
  construct b values.length
  constructElements b pointers values
  let o ← object b
  setObject b
    { o with
      size := o.capacity
      capacity := if o.capacity < t.N then t.N else o.capacity }
  assertValid b

/-- `~auto_buffer`. -/
def destruct (b : BufferName) : Buffered t Unit := do
  autoBufferDestroy b
  dropObject b

/-- A local buffer, destroyed at the end of its block and when an exception passes. -/
def withTemporary {Value : Type} (make : Buffered t Unit) (body : Buffered t Value) :
    Buffered t Value := do
  make
  let value ← onThrow body (destruct .temporary)
  destruct .temporary
  pure value

/-! ### Pushing and popping -/

/-- `unchecked_push_back()`. -/
def uncheckedPushBackDefault (b : BufferName) : Buffered t Unit := do
  let o ← object b
  assert .assertion (!o.full)
  constructorMayThrow
  constructElement o.buffer o.size
    (if t.traits.trivialConstructor then t.indeterminate else t.initial)
  setObject b { o with size := o.size + 1 }

/-- `unchecked_push_back_n`: one value-initialized element copied, or one default
construction after the other. -/
def uncheckedPushBackN (b : BufferName) (n : Nat) : Buffered t Unit := do
  let o ← object b
  assert .assertion ((o.size + n) % sizeLimit ≤ o.capacity)
  if t.traits.trivialAssign then do
    constructorMayThrow
    uninitializedCopy o.buffer o.size (List.replicate n t.initial)
    setObject b { o with size := o.size + n }
  else repeatUpTo (fun _ => uncheckedPushBackDefault b) n

/-- `unchecked_push_back(x)`. -/
def uncheckedPushBack (b : BufferName) (x : t.T) : Buffered t Unit := do
  let o ← object b
  assert .assertion (!o.full)
  copyMayThrow
  constructElement o.buffer o.size x
  setObject b { o with size := o.size + 1 }

/-- `unchecked_push_back(begin, end)`. -/
def uncheckedPushBackRange (b : BufferName) (pointers : Bool) (values : List t.T) :
    Buffered t Unit := do
  let o ← object b
  assert .assertion (o.size + values.length ≤ o.capacity)
  copyImpl pointers o.buffer o.size values
  setObject b { o with size := o.size + values.length }

def reservePrecisely (b : BufferName) (n : Nat) : Buffered t Unit := do
  let o ← object b
  assert .assertion (t.N ≤ o.capacity)
  if n ≤ o.capacity then pure ()
  else do
    reserveImpl b n
    let o' ← object b
    assert .assertion (o'.capacity = n)

def reserve (b : BufferName) (n : Nat) : Buffered t Unit := do
  let o ← object b
  assert .assertion (t.N ≤ o.capacity)
  if n ≤ o.capacity then pure ()
  else do
    let newCapacity ← newCapacityImpl b n
    reserveImpl b newCapacity
    let o' ← object b
    assert .assertion (n ≤ o'.capacity)

/-- `push_back()`. -/
def pushBackDefault (b : BufferName) : Buffered t Unit := do
  let o ← object b
  if o.size ≠ o.capacity then uncheckedPushBackDefault b
  else do
    reserve b (o.size + 1)
    uncheckedPushBackDefault b

def pushBack (b : BufferName) (x : t.T) : Buffered t Unit := do
  let o ← object b
  if o.size ≠ o.capacity then uncheckedPushBack b x
  else do
    reserve b (o.size + 1)
    uncheckedPushBack b x

def pushBackRange (b : BufferName) (pointers : Bool) (values : List t.T) :
    Buffered t Unit := do
  let o ← object b
  (if o.capacity < o.size + values.length then reserve b (o.size + values.length) else pure ())
  uncheckedPushBackRange b pointers values

def popBack (b : BufferName) : Buffered t Unit := do
  let o ← object b
  assert .assertion (o.size ≠ 0)
  destroyElement o.buffer (o.size - 1)
  setObject b { o with size := o.size - 1 }

def popBackN (b : BufferName) (n : Nat) : Buffered t Unit := do
  let o ← object b
  assert .assertion (n ≤ o.size)
  if n = 0 then pure ()
  else do
    destroyBackN b n
    setObject b { o with size := o.size - n }

def clear (b : BufferName) : Buffered t Unit := do
  let o ← object b
  popBackN b o.size

/-! ### Assignment, shrinking and swapping -/

/-- `operator=`. -/
def assign (b r : BufferName) : Buffered t Unit := do
  if b = r then pure ()
  else do
    let o ← object b
    let q ← object r
    let values ← readRange q.buffer 0 q.size
    (if q.size ≤ o.size then do
      popBackN b (o.size - q.size)
      assignImpl o.buffer 0 values
    else if q.size ≤ o.capacity then do
      uncheckedPushBackN b (q.size - o.size)
      assignImpl o.buffer 0 values
    else do
      autoBufferDestroy b
      setObject b { o with buffer := none }
      let newBuffer ← allocate b q.size
      onThrow (copyImpl true newBuffer 0 values) (deallocate newBuffer q.size)
      setObject b { capacity := q.size, buffer := newBuffer, size := q.size })
    let o' ← object b
    assert .assertion (o'.size = q.size)
    assertValid b

def shrinkToFit (b : BufferName) : Buffered t Unit := do
  let o ← object b
  if o.isOnStack t || !t.shouldShrink o.size o.capacity then pure ()
  else do
    reserveImpl b o.size
    let o' ← object b
    let shrunk := { o' with capacity := max t.N o'.capacity }
    setObject b shrunk
    assert .assertion (shrunk.isOnStack t || shrunk.size = shrunk.capacity)
    assert .assertion (!shrunk.isOnStack t || shrunk.size ≤ shrunk.capacity)

/-- `operator[]`. -/
def subscript (b : BufferName) (n : Nat) : Buffered t t.T := do
  let o ← object b
  assert .assertion (n < o.size)
  readElement o.buffer n

/-- `boost::core::invoke_swap` of an element of each. -/
def swapElement (l r : BufferName) (i : Nat) : Buffered t Unit := do
  let a ← subscript l i
  let c ← subscript r i
  let ol ← object l
  let or ← object r
  copyMayThrow
  assignMayThrow
  assignElement ol.buffer i c
  assignMayThrow
  assignElement or.buffer i a

/-- `swap_helper` for trivial assignment. -/
def swapHelperTrivial (l r : BufferName) : Buffered t Unit := do
  let ol ← object l
  let or ← object r
  assert .assertion (ol.isOnStack t && or.isOnStack t)
  let left ← readRange ol.buffer 0 ol.size
  withTemporary (rangeConstruct .temporary false left) do
    let right ← readRange or.buffer 0 or.size
    assignImpl ol.buffer 0 right
    let temp ← object .temporary
    let saved ← readRange temp.buffer 0 temp.size
    assignImpl or.buffer 0 saved
    setObject l { ol with size := or.size, capacity := or.capacity }
    setObject r { or with size := ol.size, capacity := ol.capacity }

/-- `swap_helper` for other elements: the common part is swapped, the rest moved. -/
def swapHelper (l r : BufferName) : Buffered t Unit := do
  let ol ← object l
  let or ← object r
  assert .assertion (ol.isOnStack t && or.isOnStack t)
  let minSize := min ol.size or.size
  let maxSize := max ol.size or.size
  let smallest := if ol.size = minSize then l else r
  let largest := if smallest = l then r else l
  repeatUpTo (fun i => swapElement smallest largest i) minSize
  repeatUpTo (fun k => do
    let v ← subscript largest (minSize + k)
    uncheckedPushBack smallest v) (maxSize - minSize)
  popBackN largest (maxSize - minSize)
  let ol' ← object l
  let or' ← object r
  setObject l { ol' with capacity := or'.capacity }
  let or'' ← object r
  setObject r { or'' with capacity := ol'.capacity }

/-- The exchange with exactly one buffer in its own storage. -/
def swapOneOnStack (oneOnStack other : BufferName) : Buffered t Unit := do
  let one ← object oneOnStack
  let o ← object other
  let newBuffer : Pointer := some (.internal other)
  let values ← readRange one.buffer 0 one.size
  copyImpl false newBuffer 0 values
  autoBufferDestroy oneOnStack
  setObject oneOnStack o
  setObject other { one with buffer := newBuffer }
  assert .assertion (one.isOnStack t)
  assert .assertion (!o.isOnStack t)

def swap (b r : BufferName) : Buffered t Unit := do
  let o ← object b
  let q ← object r
  (if !o.isOnStack t && !q.isOnStack t then do
    setObject b q
    setObject r o
  else if o.isOnStack t && q.isOnStack t then
    if t.traits.trivialAssign then swapHelperTrivial b r else swapHelper b r
  else if o.isOnStack t then swapOneOnStack b r
  else swapOneOnStack r b)
  assertValid b
  assertValid r

/-! ### Insertion -/

/-- `one_sided_swap`. -/
def oneSidedSwap (b temp : BufferName) : Buffered t Unit := do
  let p ← object temp
  assert .assertion (!p.isOnStack t)
  autoBufferDestroy b
  let o ← object b
  assert .assertion (o.size + 1 ≤ p.size)
  setObject b p
  setObject temp { p with buffer := none }
  assertValid temp

/-- Elements with a trivial constructor are there when the size counts them. -/
def growTrivially (b : BufferName) (n : Nat) : Buffered t Unit := do
  let o ← object b
  assert .assertion ((o.size + n) % sizeLimit ≤ o.capacity)
  memcpyConstruct o.buffer o.size (List.replicate n t.indeterminate)
  setObject b { o with size := o.size + n }

def growBack (b : BufferName) (n : Nat) : Buffered t Unit :=
  if t.traits.trivialConstructor then growTrivially b n else uncheckedPushBackN b n

def growBackOne (b : BufferName) : Buffered t Unit :=
  if t.traits.trivialConstructor then growTrivially b 1 else uncheckedPushBackDefault b

/-- `std::copy( before, cend() - n, where + n )`. -/
def openGap (b : BufferName) (before n : Nat) : Buffered t Unit := do
  let o ← object b
  assert .outOfRange (n ≤ o.size)
  stdCopy o.buffer before (o.size - n - before) (before + n)

/-- The part of the local buffer that every reallocating `insert` has in common; `push`
appends what is inserted. -/
def rebuild {Value : Type} (b : BufferName) (before newSize : Nat) (push : Buffered t Value) :
    Buffered t Value := do
  let capacity ← newCapacityImpl b newSize
  withTemporary (capacityConstruct .temporary capacity) do
    let o ← object b
    let front ← readRange o.buffer 0 before
    uncheckedPushBackRange .temporary true front
    let value ← push
    let back ← readRange o.buffer before (o.size - before)
    uncheckedPushBackRange .temporary true back
    oneSidedSwap b .temporary
    assertValid b
    pure value

/-- `insert(before, x)`; it returns the position of the new element. -/
def insert (b : BufferName) (before : Nat) (x : t.T) : Buffered t (Pointer × Nat) := do
  let o ← object b
  if o.size < o.capacity then do
    (if before ≠ o.size then do
      growBackOne b
      openGap b before 1
      assignEach o.buffer before [x]
      assertValid b
    else uncheckedPushBack b x)
    pure (o.buffer, before)
  else
    rebuild b before (o.size + 1) do
      let temp ← object .temporary
      uncheckedPushBack .temporary x
      pure (temp.buffer, temp.size)

/-- `insert(before, n, x)`. -/
def insertN (b : BufferName) (before n : Nat) (x : t.T) : Buffered t Unit := do
  let o ← object b
  if (o.size + n) % sizeLimit ≤ o.capacity then do
    growBack b n
    openGap b before n
    assignEach o.buffer before (List.replicate n x)
    assertValid b
  else
    rebuild b before ((o.size + n) % sizeLimit) do
      let temp ← object .temporary
      uninitializedCopy temp.buffer temp.size (List.replicate n x)
      setObject .temporary { temp with size := temp.size + n }

/-- `insert(before, begin, end)` for forward iterators. -/
def insertRange (b : BufferName) (before : Nat) (pointers : Bool) (values : List t.T) :
    Buffered t Unit := do
  let o ← object b
  if o.size + values.length ≤ o.capacity then do
    (if before ≠ o.size then do
      growBack b values.length
      openGap b before values.length
      assignImpl o.buffer before values
    else uncheckedPushBackRange b pointers values)
    assertValid b
  else
    rebuild b before (o.size + values.length) do
      uncheckedPushBackRange .temporary pointers values

/-- `insert(before, begin, end)` for input iterators. -/
def insertInput (b : BufferName) (before : Nat) : List t.T → Buffered t Unit
  | [] => pure ()
  | x :: rest => do
      let position ← insert b before x
      insertInput b (position.2 + 1) rest

/-! ### Erasure -/

/-- What `unsigned` counts to. -/
def unsignedLimit : Nat := Nat.pow 2 32

/-- `erase(where)`; it returns the position of the element that followed. -/
def erase (b : BufferName) (where_ : Nat) : Buffered t (Pointer × Nat) := do
  let o ← object b
  assert .assertion (o.size ≠ 0)
  assert .assertion (where_ < o.size)
  let elements := (o.size - where_ - 1) % unsignedLimit
  (if 0 < elements then stdCopy o.buffer (where_ + 1) elements where_ else pure ())
  popBack b
  let o' ← object b
  assert .assertion (!o'.full)
  assert .assertion (where_ ≤ o'.size)
  pure (o.buffer, where_)

/-- `erase(from, to)`. -/
def eraseRange (b : BufferName) (from_ to_ : Nat) : Buffered t (Pointer × Nat) := do
  let o ← object b
  assert .assertion (!(from_ < to_) || o.size ≠ 0)
  assert .assertion (to_ ≤ o.size)
  let elements := (o.size - to_) % unsignedLimit
  (if 0 < elements then stdCopy o.buffer to_ elements from_ else pure ())
  popBackN b (to_ - from_)
  let o' ← object b
  assert .assertion (!o'.full)
  assert .assertion (from_ ≤ o'.size)
  pure (o.buffer, from_)

end AutoBuffer

end Signals2
