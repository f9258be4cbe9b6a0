/-
Programs: any number of signals together with the connection objects, scoped or
not, and the shared connection blocks that refer to their connections.

Objects are known by their position in a list and never move; a destroyed object
leaves an empty entry.  The record of a block is kept with the signal of the
connection it refers to, where a slot call iterator asks for it.
-/

import Signals2.Machine

namespace Signals2

variable {Name : Type} {σ : Name → SignalTemplate}

abbrev ConnectionId := Nat

inductive ConnectionClass where
  | connection
  | scopedConnection
deriving DecidableEq, Repr

/-- An object of one of the two classes; its weak pointer names a body and the signal
that the body belongs to. -/
structure ConnectionObject (Name : Type) where
  type : ConnectionClass
  weakConnectionBody : Option (Name × BodyId)

structure Program (σ : Name → SignalTemplate) where
  signals : ∀ name, World (σ name)
  connections : List (Option (ConnectionObject Name))
  blocks : List (Option (Name × BlockId))

/-- Whether an action of one signal is an operation of a block. -/
def Action.ofBlock {σ : SignalTemplate} : Action σ → Bool
  | .constructBlock _ => true
  | .copyBlock _ => true
  | .block _ => true
  | .unblock _ => true
  | _ => false

inductive ProgramAction (σ : Name → SignalTemplate) where
  -- anything that happens to one signal, but for operations of blocks
  | signal (name : Name) (a : Action (σ name))
  -- connection objects
  | construct (type : ConnectionClass)
  | refer (connectionBody : Name × BodyId)
  | copyConstruct (type : ConnectionClass) (other : ConnectionId)
  | moveConstruct (type : ConnectionClass) (other : ConnectionId)
  | copyAssign (this rhs : ConnectionId)
  | moveAssign (this rhs : ConnectionId)
  -- the operators of the base class, called through a reference to it
  | baseCopyAssign (this rhs : ConnectionId)
  | baseMoveAssign (this rhs : ConnectionId)
  | swap (this other : ConnectionId)
  | release (this : ConnectionId)
  | disconnect (this : ConnectionId)
  | destroy (this : ConnectionId)
  -- shared connection blocks; `home` keeps the record of a block without connection
  | constructBlock (home : Name) (conn : ConnectionId) (initiallyBlocked : Bool)
  | copyConstructBlock (other : BlockId)
  | moveConstructBlock (other : BlockId)
  | copyAssignBlock (this rhs : BlockId)
  | moveAssignBlock (this rhs : BlockId)
  | block (this : BlockId)
  | unblock (this : BlockId)
  | destroyBlock (this : BlockId)

namespace World

variable {σ : SignalTemplate} (w : World σ)

/-- A block whose members have been reset. -/
def resetBlock (k : BlockId) : World σ :=
  { w with blocks := w.blocks.set k { weakConnectionBody := none, blocker := none } }

end World

namespace Program

variable (p : Program σ)

/-! ### The objects -/

def object (this : ConnectionId) : Option (ConnectionObject Name) := p.connections[this]?.join

def reference (this : ConnectionId) : Option (Name × BodyId) :=
  (p.object this).bind ConnectionObject.weakConnectionBody

def setReference (this : ConnectionId) (body : Option (Name × BodyId)) : Program σ :=
  match p.object this with
  | none => p
  | some conn =>
      { p with
        connections := p.connections.set this (some { conn with weakConnectionBody := body }) }

def newConnection (type : ConnectionClass) (body : Option (Name × BodyId)) : Program σ :=
  { p with
    connections := p.connections ++ [some { type := type, weakConnectionBody := body }] }

/-- The end of an object's lifetime. -/
def remove (this : ConnectionId) : Program σ :=
  { p with connections := p.connections.set this none }

def connectionMoveConstruct (type : ConnectionClass) (other : ConnectionId) : Program σ :=
  (p.newConnection type (p.reference other)).setReference other none

def connectionCopyAssign (this other : ConnectionId) : Program σ :=
  if other = this then p else p.setReference this (p.reference other)

def connectionMoveAssign (this other : ConnectionId) : Program σ :=
  if other = this then p
  else (p.setReference this (p.reference other)).setReference other none

def swap (this other : ConnectionId) : Program σ :=
  (p.setReference this (p.reference other)).setReference other (p.reference this)

/-- `scoped_connection::release`; the connection returned is a new object. -/
def release (this : ConnectionId) : Program σ :=
  (p.newConnection .connection (p.reference this)).setReference this none

def isScoped (p : Program σ) (this : ConnectionId) : Bool :=
  (p.object this).any fun conn => conn.type = .scopedConnection

variable {p}

theorem object_inside {this : ConnectionId} {conn : ConnectionObject Name}
    (present : p.object this = some conn) : this < p.connections.length := by
  by_contra outside
  rw [object, List.getElem?_eq_none (Nat.le_of_not_lt outside)] at present
  cases present

theorem object_congr {p' : Program σ} (same : p'.connections = p.connections)
    (this : ConnectionId) : p'.object this = p.object this := by
  rw [object, object, same]

theorem reference_of_object {this : ConnectionId} {conn : ConnectionObject Name}
    (present : p.object this = some conn) : p.reference this = conn.weakConnectionBody := by
  rw [reference, present]
  rfl

theorem reference_congr {p' : Program σ} {this : ConnectionId}
    (same : p'.object this = p.object this) : p'.reference this = p.reference this := by
  rw [reference, reference, same]

theorem isScoped_of_object {this : ConnectionId} {conn : ConnectionObject Name}
    (present : p.object this = some conn) :
    p.isScoped this = decide (conn.type = .scopedConnection) := by
  rw [isScoped, present]
  rfl

@[simp] theorem setReference_signals (this : ConnectionId) (body : Option (Name × BodyId)) :
    (p.setReference this body).signals = p.signals := by
  unfold setReference
  split <;> rfl

@[simp] theorem setReference_blocks (this : ConnectionId) (body : Option (Name × BodyId)) :
    (p.setReference this body).blocks = p.blocks := by
  unfold setReference
  split <;> rfl

theorem setReference_self {this : ConnectionId} {conn : ConnectionObject Name}
    (present : p.object this = some conn) (body : Option (Name × BodyId)) :
    (p.setReference this body).object this = some { conn with weakConnectionBody := body } := by
  have inside := object_inside present
  unfold setReference
  rw [present]
  simp [object, List.getElem?_set_self inside]

theorem setReference_reference {this : ConnectionId} {conn : ConnectionObject Name}
    (present : p.object this = some conn) (body : Option (Name × BodyId)) :
    (p.setReference this body).reference this = body := by
  rw [reference_of_object (setReference_self present body)]

theorem setReference_other {this other : ConnectionId} (apart : other ≠ this)
    (body : Option (Name × BodyId)) : (p.setReference this body).object other = p.object other := by
  unfold setReference
  split
  · rfl
  · simp [object, List.getElem?_set_ne (Ne.symm apart)]

theorem newConnection_object {this : ConnectionId} {conn : ConnectionObject Name}
    (present : p.object this = some conn) (type : ConnectionClass)
    (body : Option (Name × BodyId)) : (p.newConnection type body).object this = some conn := by
  have inside := object_inside present
  simpa [object, newConnection, List.getElem?_append_left inside] using present

theorem remove_object (this : ConnectionId) : (p.remove this).object this = none := by
  unfold object remove
  by_cases inside : this < p.connections.length
  · simp [List.getElem?_set_self inside]
  · rw [List.getElem?_eq_none]
    · rfl
    · simpa using inside

@[simp] theorem connectionCopyAssign_signals (this rhs : ConnectionId) :
    (p.connectionCopyAssign this rhs).signals = p.signals := by
  unfold connectionCopyAssign
  split
  · rfl
  · simp

@[simp] theorem connectionMoveAssign_signals (this rhs : ConnectionId) :
    (p.connectionMoveAssign this rhs).signals = p.signals := by
  unfold connectionMoveAssign
  split
  · rfl
  · simp

@[simp] theorem connectionCopyAssign_blocks (this rhs : ConnectionId) :
    (p.connectionCopyAssign this rhs).blocks = p.blocks := by
  unfold connectionCopyAssign
  split
  · rfl
  · simp

@[simp] theorem connectionMoveAssign_blocks (this rhs : ConnectionId) :
    (p.connectionMoveAssign this rhs).blocks = p.blocks := by
  unfold connectionMoveAssign
  split
  · rfl
  · simp

/-! ### Bodies that objects refer to -/

def Refers (p : Program σ) (body : Name × BodyId) : Prop := ∃ this, p.reference this = some body

variable {body : Name × BodyId}

theorem refers_setReference {this : ConnectionId} {given : Option (Name × BodyId)}
    (refers : (p.setReference this given).Refers body) : p.Refers body ∨ given = some body := by
  obtain ⟨other, target⟩ := refers
  cases present : p.object this with
  | none =>
      have same : p.setReference this given = p := by
        rw [setReference, present]
      rw [same] at target
      exact .inl ⟨other, target⟩
  | some conn =>
      by_cases here : other = this
      · subst here
        rw [setReference_reference present] at target
        exact .inr target
      · rw [reference_congr (setReference_other here given)] at target
        exact .inl ⟨other, target⟩

theorem refers_newConnection {type : ConnectionClass} {given : Option (Name × BodyId)}
    (refers : (p.newConnection type given).Refers body) : p.Refers body ∨ given = some body := by
  obtain ⟨other, target⟩ := refers
  unfold reference object newConnection at target
  by_cases inside : other < p.connections.length
  · rw [List.getElem?_append_left inside] at target
    exact .inl ⟨other, target⟩
  · by_cases last : other = p.connections.length
    · subst last
      simp only [List.getElem?_concat_length] at target
      exact .inr target
    · rw [List.getElem?_eq_none] at target
      · cases target
      · rw [List.length_append]
        exact Nat.lt_of_le_of_ne (Nat.le_of_not_lt inside) (Ne.symm last)

theorem refers_remove {this : ConnectionId} (refers : (p.remove this).Refers body) :
    p.Refers body := by
  obtain ⟨other, target⟩ := refers
  by_cases here : other = this
  · subst here
    rw [reference, remove_object] at target
    cases target
  · refine ⟨other, ?_⟩
    rw [← target]
    apply reference_congr
    simp [object, remove, List.getElem?_set_ne (Ne.symm here)]

theorem refers_congr {p' : Program σ} (same : p'.connections = p.connections)
    (refers : p'.Refers body) : p.Refers body := by
  obtain ⟨other, target⟩ := refers
  exact ⟨other, by rw [← target, reference_congr (object_congr same other)]⟩

/-- A reference written over with one that exists, or with none. -/
theorem refers_rebound {this : ConnectionId} {given : Option (Name × BodyId)}
    (refers : (p.setReference this given).Refers body)
    (known : given = some body → p.Refers body) : p.Refers body :=
  (refers_setReference refers).elim id known

theorem refers_copyAssign {this rhs : ConnectionId}
    (refers : (p.connectionCopyAssign this rhs).Refers body) : p.Refers body := by
  unfold connectionCopyAssign at refers
  split at refers
  · exact refers
  · exact refers_rebound refers fun target => ⟨rhs, target⟩

theorem refers_moveAssign {this rhs : ConnectionId}
    (refers : (p.connectionMoveAssign this rhs).Refers body) : p.Refers body := by
  unfold connectionMoveAssign at refers
  split at refers
  · exact refers
  · have before := refers_rebound refers fun impossible => by cases impossible
    exact refers_rebound before fun target => ⟨rhs, target⟩

theorem refers_swap {this other : ConnectionId} (refers : (p.swap this other).Refers body) :
    p.Refers body := by
  rcases refers_setReference refers with before | target
  · exact refers_rebound before fun target => ⟨other, target⟩
  · exact ⟨this, target⟩

theorem refers_moved {type : ConnectionClass} {this : ConnectionId}
    (refers : ((p.newConnection type (p.reference this)).setReference this none).Refers body) :
    p.Refers body := by
  have before := refers_rebound refers fun impossible => by cases impossible
  exact (refers_newConnection before).elim id fun target => ⟨this, target⟩

variable [DecidableEq Name] (p)

def setSignal (name : Name) (w : World (σ name)) : Program σ :=
  { p with signals := Function.update p.signals name w }

def stepSignal (name : Name) (a : Action (σ name)) : Option (Program σ) :=
  ((p.signals name).step a).map (p.setSignal name)

/-! ### Operations of connection objects -/

def alive (body : Name × BodyId) : Bool := (p.signals body.1).bodyAlive body.2

/-- `_weak_connection_body.lock()`. -/
def lock (this : ConnectionId) : Option (Name × BodyId) := (p.reference this).filter p.alive

/-- `connection::disconnect`. -/
def disconnect (this : ConnectionId) : Option (Program σ) :=
  match p.lock this with
  | none => some p
  | some (name, b) => p.stepSignal name (.disconnect b)

/-- `connection::blocked`. -/
def blocked (this : ConnectionId) : Bool :=
  match p.lock this with
  | none => true
  | some (name, b) => (p.signals name).blocked b

/-- The assignment from `const connection &` does not look for itself. -/
def scopedCopyAssign (this rhs : ConnectionId) : Option (Program σ) :=
  (p.disconnect this).map fun disconnected => disconnected.connectionCopyAssign this rhs

def scopedMoveAssign (this other : ConnectionId) : Option (Program σ) :=
  if other = this then some p
  else (p.disconnect this).map fun disconnected => disconnected.connectionMoveAssign this other

/-! ### Shared connection blocks -/

def blockAt (this : BlockId) : Option (Name × BlockId) := p.blocks[this]?.join

/-- The members of a block. -/
def record (this : BlockId) : Option SharedConnectionBlock :=
  (p.blockAt this).bind fun place => (p.signals place.1).blocks[place.2]?

/-- `shared_connection_block::blocking`. -/
def blocking (this : BlockId) : Bool := (p.record this).any fun block => block.blocker.isSome

/-- What `shared_connection_block::connection` returns refers to. -/
def blockReference (this : BlockId) : Option (Name × BodyId) :=
  (p.blockAt this).bind fun place =>
    (((p.signals place.1).blocks[place.2]?).bind SharedConnectionBlock.weakConnectionBody).map
      (Prod.mk place.1)

def reset (place : Name × BlockId) : Program σ :=
  p.setSignal place.1 ((p.signals place.1).resetBlock place.2)

/-- Where the next record of a signal goes. -/
def nextRecord (name : Name) : Name × BlockId := (name, (p.signals name).blocks.length)

def constructBlock (home : Name) (conn : ConnectionId) (initiallyBlocked : Bool) :
    Option (Program σ) :=
  match p.object conn with
  | none => none
  | some connection =>
      let name := (connection.weakConnectionBody.map Prod.fst).getD home
      let body := connection.weakConnectionBody.map Prod.snd
      let place := p.nextRecord name
      (p.stepSignal name (.constructBlock body)).bind fun constructed =>
        let placed := { constructed with blocks := p.blocks ++ [some place] }
        if initiallyBlocked then placed.stepSignal name (.block place.2) else some placed

def copyConstructBlock (other : BlockId) : Option (Program σ) :=
  match p.blockAt other with
  | none => none
  | some (name, j) =>
      (p.stepSignal name (.copyBlock j)).map fun copied =>
        { copied with blocks := p.blocks ++ [some (p.nextRecord name)] }

def moveConstructBlock (other : BlockId) : Option (Program σ) :=
  match p.blockAt other with
  | none => none
  | some place => (p.copyConstructBlock other).map fun copied => copied.reset place

/-- The new members are there before the old ones go. -/
def copyAssignBlock (this rhs : BlockId) : Option (Program σ) :=
  match p.blockAt this, p.blockAt rhs with
  | some old, some (name, j) =>
      (p.stepSignal name (.copyBlock j)).map fun copied =>
        { copied.reset old with blocks := p.blocks.set this (some (p.nextRecord name)) }
  | _, _ => none

/-- Moving an object onto itself changes nothing. -/
def moveAssignBlock (this rhs : BlockId) : Option (Program σ) :=
  match p.blockAt rhs with
  | none => none
  | some place =>
      if rhs = this then some p
      else (p.copyAssignBlock this rhs).map fun copied => copied.reset place

def block (this : BlockId) : Option (Program σ) :=
  match p.blockAt this with
  | none => none
  | some (name, j) => p.stepSignal name (.block j)

def unblock (this : BlockId) : Option (Program σ) :=
  match p.blockAt this with
  | none => none
  | some (name, j) => p.stepSignal name (.unblock j)

def destroyBlock (this : BlockId) : Option (Program σ) :=
  match p.blockAt this with
  | none => none
  | some place => some { p.reset place with blocks := p.blocks.set this none }

/-! ### Steps -/

/-- An object can be referred to while it exists, and only a body that has been made
has a weak pointer to it. -/
def step (p : Program σ) (action : ProgramAction σ) : Option (Program σ) :=
  match action with
  | .signal name a => if a.ofBlock then none else p.stepSignal name a
  | .construct type => some (p.newConnection type none)
  | .refer body =>
      if body.2 < (p.signals body.1).nextBody then some (p.newConnection .connection (some body))
      else none
  | .copyConstruct type other =>
      (p.object other).map fun _ => p.newConnection type (p.reference other)
  | .moveConstruct type other =>
      (p.object other).map fun _ => p.connectionMoveConstruct type other
  | .copyAssign this rhs =>
      match p.object this, p.object rhs with
      | some conn, some _ =>
          match conn.type with
          | .connection => some (p.connectionCopyAssign this rhs)
          | .scopedConnection => p.scopedCopyAssign this rhs
      | _, _ => none
  | .moveAssign this rhs =>
      match p.object this, p.object rhs with
      | some conn, some _ =>
          match conn.type with
          | .connection => some (p.connectionMoveAssign this rhs)
          | .scopedConnection => p.scopedMoveAssign this rhs
      | _, _ => none
  | .baseCopyAssign this rhs =>
      match p.object this, p.object rhs with
      | some _, some _ => some (p.connectionCopyAssign this rhs)
      | _, _ => none
  | .baseMoveAssign this rhs =>
      match p.object this, p.object rhs with
      | some _, some _ => some (p.connectionMoveAssign this rhs)
      | _, _ => none
  | .swap this other =>
      match p.object this, p.object other with
      | some _, some _ => some (p.swap this other)
      | _, _ => none
  | .release this =>
      match p.object this with
      | none => none
      | some conn =>
          match conn.type with
          | .connection => none
          | .scopedConnection => some (p.release this)
  | .disconnect this => (p.object this).bind fun _ => p.disconnect this
  | .destroy this =>
      match p.object this with
      | none => none
      | some conn =>
          match conn.type with
          | .connection => some (p.remove this)
          | .scopedConnection =>
              (p.disconnect this).map fun disconnected => disconnected.remove this
  | .constructBlock home conn initiallyBlocked => p.constructBlock home conn initiallyBlocked
  | .copyConstructBlock other => p.copyConstructBlock other
  | .moveConstructBlock other => p.moveConstructBlock other
  | .copyAssignBlock this rhs => p.copyAssignBlock this rhs
  | .moveAssignBlock this rhs => p.moveAssignBlock this rhs
  | .block this => p.block this
  | .unblock this => p.unblock this
  | .destroyBlock this => p.destroyBlock this

/-- Any number of signals after their constructors, and no objects. -/
def construct (combiner : ∀ name, (σ name).Combiner)
    (defaultCompare groupCompare : ∀ name, (σ name).Group → (σ name).Group → Bool)
    (owners : Name → ObjectId → Nat) : Program σ :=
  { signals := fun name =>
      .construct (combiner name) (defaultCompare name) (groupCompare name) (owners name)
    connections := []
    blocks := [] }

/-! ### What the operations leave -/

variable {p}

@[simp] theorem setSignal_connections (name : Name) (w : World (σ name)) :
    (p.setSignal name w).connections = p.connections := rfl

@[simp] theorem setSignal_blocks (name : Name) (w : World (σ name)) :
    (p.setSignal name w).blocks = p.blocks := rfl

@[simp] theorem setSignal_same (name : Name) (w : World (σ name)) :
    (p.setSignal name w).signals name = w := by
  simp [setSignal]

theorem setSignal_other {name other : Name} (apart : other ≠ name) (w : World (σ name)) :
    (p.setSignal name w).signals other = p.signals other := by
  simp [setSignal, apart]

/-! ### Steps of connection objects -/

variable {p' : Program σ}

theorem step_copyAssign {this rhs : ConnectionId}
    (stepped : p.step (.copyAssign this rhs) = some p') :
    ∃ conn other, p.object this = some conn ∧ p.object rhs = some other ∧
      (p.isScoped this = false ∧ p' = p.connectionCopyAssign this rhs ∨
        p.isScoped this = true ∧ ∃ disconnected, p.disconnect this = some disconnected ∧
          p' = disconnected.connectionCopyAssign this rhs) := by
  simp only [step] at stepped
  split at stepped
  · rename_i conn other present present'
    refine ⟨conn, other, present, present', ?_⟩
    rw [isScoped_of_object present]
    split at stepped
    · rename_i plain
      cases stepped
      exact .inl ⟨by simp [plain], rfl⟩
    · rename_i own
      obtain ⟨disconnected, done, rfl⟩ := Option.map_eq_some_iff.mp stepped
      exact .inr ⟨by simp [own], disconnected, done, rfl⟩
  · cases stepped

theorem step_moveAssign {this rhs : ConnectionId}
    (stepped : p.step (.moveAssign this rhs) = some p') :
    ∃ conn other, p.object this = some conn ∧ p.object rhs = some other ∧
      (p.isScoped this = false ∧ p' = p.connectionMoveAssign this rhs ∨
        rhs = this ∧ p' = p ∨
        p.isScoped this = true ∧ rhs ≠ this ∧
          ∃ disconnected, p.disconnect this = some disconnected ∧
            p' = disconnected.connectionMoveAssign this rhs) := by
  simp only [step] at stepped
  split at stepped
  · rename_i conn other present present'
    refine ⟨conn, other, present, present', ?_⟩
    rw [isScoped_of_object present]
    split at stepped
    · rename_i plain
      cases stepped
      exact .inl ⟨by simp [plain], rfl⟩
    · rename_i own
      right
      unfold scopedMoveAssign at stepped
      split at stepped
      · rename_i same
        cases stepped
        exact .inl ⟨same, rfl⟩
      · rename_i different
        obtain ⟨disconnected, done, rfl⟩ := Option.map_eq_some_iff.mp stepped
        exact .inr ⟨by simp [own], different, disconnected, done, rfl⟩
  · cases stepped

theorem step_baseCopyAssign {this rhs : ConnectionId}
    (stepped : p.step (.baseCopyAssign this rhs) = some p') :
    ∃ conn other, p.object this = some conn ∧ p.object rhs = some other ∧
      p' = p.connectionCopyAssign this rhs := by
  simp only [step] at stepped
  split at stepped
  · rename_i conn other present present'
    cases stepped
    exact ⟨conn, other, present, present', rfl⟩
  · cases stepped

theorem step_baseMoveAssign {this rhs : ConnectionId}
    (stepped : p.step (.baseMoveAssign this rhs) = some p') :
    ∃ conn other, p.object this = some conn ∧ p.object rhs = some other ∧
      p' = p.connectionMoveAssign this rhs := by
  simp only [step] at stepped
  split at stepped
  · rename_i conn other present present'
    cases stepped
    exact ⟨conn, other, present, present', rfl⟩
  · cases stepped

theorem step_destroy {this : ConnectionId} (stepped : p.step (.destroy this) = some p') :
    p.isScoped this = false ∧ p' = p.remove this ∨
      p.isScoped this = true ∧ ∃ disconnected, p.disconnect this = some disconnected ∧
        p' = disconnected.remove this := by
  simp only [step] at stepped
  split at stepped
  · cases stepped
  · rename_i conn present
    rw [isScoped_of_object present]
    split at stepped
    · rename_i plain
      cases stepped
      exact .inl ⟨by simp [plain], rfl⟩
    · rename_i own
      obtain ⟨disconnected, done, rfl⟩ := Option.map_eq_some_iff.mp stepped
      exact .inr ⟨by simp [own], disconnected, done, rfl⟩

theorem step_release {this : ConnectionId} (stepped : p.step (.release this) = some p') :
    ∃ conn, p.object this = some conn ∧ p' = p.release this := by
  simp only [step] at stepped
  split at stepped
  · cases stepped
  · rename_i conn present
    split at stepped
    · cases stepped
    · cases stepped
      exact ⟨conn, present, rfl⟩

end Program

/-- One signal, without objects. -/
def natProgram : Program fun _ : Unit => natSignal :=
  { signals := fun _ => natStart
    connections := []
    blocks := [] }

theorem natProgram_start :
    natProgram = Program.construct (σ := fun _ => natSignal) (fun _ => (0 : Nat))
      (fun _ (a b : Nat) => decide (a < b)) (fun _ (a b : Nat) => decide (a < b)) fun _ _ => 0 :=
  rfl

end Signals2
