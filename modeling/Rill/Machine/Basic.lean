import Rill.Machine.Forest
import Rill.Machine.Sink
import Rill.Scope.Resolution

/-!
# The machine

A machine runs statements. It holds the frames, the fields of instances, the frame that is current,
and the bindings of all programs given to it, so that a function keeps its bindings when it is
called from a later program. A run goes on with the machine as it was left, also when it halts.
-/

namespace Rill

/-- The state of a running program. -/
structure Machine where
  forest : Forest
  /-- The fields of every instance, by its identity. -/
  fields : Std.TreeMap Identity (Table Value)
  /-- The next identity of a function, class or instance. -/
  nextIdentity : Identity
  /-- The frame of the innermost scope that is being run. -/
  current : FrameId
  bindings : Bindings
  sink : Sink
  /-- How often a function of the host has been called. -/
  hostCalls : Nat

/-- A part of a run, which changes the machine and may halt. -/
abbrev Run := EStateM Halt Machine

/-- What the functions of the host do at some moment. -/
abbrev Host (ε : Type := FrameId) := Native → List (Value ε) → Except String (Value ε)

/-- What the functions of the host do, call by call: a clock goes on from one call to the next. -/
structure Hosting (ε : Type := FrameId) where
  /-- The host as it is when so many calls have been made before. -/
  answer : Nat → Host ε

/-- A host that never changes. -/
instance {ε : Type} : Coe (Host ε) (Hosting ε) := ⟨fun host => ⟨fun _ => host⟩⟩

namespace Machine

/-- The frame of the globals. -/
def globals : FrameId := 0

/-- A machine with no globals. -/
def empty (sink : Sink) : Machine where
  forest := Forest.empty.add none
  fields := ∅
  nextIdentity := 0
  current := globals
  bindings := ∅
  sink := sink
  hostCalls := 0

/-- Gives a global a value. -/
def defineGlobal (m : Machine) (name : String) (value : Value) : Machine :=
  { m with forest := m.forest.define globals name value }

/-- The value of a global. -/
def global (m : Machine) (name : String) : Except RuntimeFault Value :=
  m.forest.get globals name 0

/-- Adds the bindings of another program. -/
def addBindings (m : Machine) (bindings : Bindings) : Machine :=
  { m with bindings := m.bindings ∪ bindings }

/-- The fields of an instance. -/
def fieldsOf (m : Machine) (o : Object) : Table Value := (m.fields[o.identity]?).getD ∅

/-- What a function, class or instance is, in more detail than its text. -/
def describe? (m : Machine) : Value → Option String
  | .closure c => some c.description
  | .cls c => some c.description
  | .object o => some (o.description (m.fieldsOf o))
  | _ => none

end Machine

namespace Run

/-- Halts with a fault of the program. -/
def refuse {α : Type} (line : Nat) (cause : RuntimeCause) : Run α :=
  throw (.fault ⟨line, cause⟩)

/-- Gives out an identity that has not been given out before. -/
def newIdentity : Run Identity :=
  modifyGet fun m => (m.nextIdentity, { m with nextIdentity := m.nextIdentity + 1 })

/-- Counts a call of the host, and tells how many there were before it. -/
def countHostCall : Run Nat :=
  modifyGet fun m => (m.hostCalls, { m with hostCalls := m.hostCalls + 1 })

/-- Makes a frame inside another. -/
def newFrame (enclosing : FrameId) : Run FrameId :=
  modifyGet fun m => (m.forest.nextId, { m with forest := m.forest.add (some enclosing) })

/-- Gives a name in a frame a value. -/
def defineIn (frame : FrameId) (name : String) (value : Value) : Run Unit :=
  modify fun m => { m with forest := m.forest.define frame name value }

/-- Gives a name in the current frame a value. -/
def define (name : String) (value : Value) : Run Unit :=
  modify fun m => { m with forest := m.forest.define m.current name value }

/--
Runs something with another frame current, and makes the former one current again in any case.
-/
def inFrame {α : Type} (frame : FrameId) (body : Run α) : Run α := fun m =>
  let former := m.current
  match body { m with current := frame } with
  | .ok a m => .ok a { m with current := former }
  | .error halt m => .error halt { m with current := former }

/-- Runs something in a new frame inside the current one. -/
def inNewFrame {α : Type} (body : Run α) : Run α := do
  let frame ← newFrame (← get).current
  inFrame frame body

/-- The value of a name, where its binding says, or in the globals if it has none. -/
def lookUp (id : Occurrence) (name : String) (line : Nat) : Run Value := do
  let m ← get
  match m.bindings[id]? with
  | some depth =>
    match m.forest.getAt m.current depth name with
    | .ok value => return value
    | .error breach => throw (.breach breach)
  | none =>
    match m.forest.get Machine.globals name line with
    | .ok value => return value
    | .error fault => throw (.fault fault)

/-- Gives a name another value, where its binding says, or in the globals if it has none. -/
def assign (id : Occurrence) (name : String) (value : Value) (line : Nat) : Run Unit := do
  let m ← get
  match m.bindings[id]? with
  | some depth =>
    match m.forest.ownerAt m.current depth with
    | .ok owner => defineIn owner name value
    | .error breach => throw (.breach breach)
  | none =>
    match m.forest.owner Machine.globals name line with
    | .ok owner => defineIn owner name value
    | .error fault => throw (.fault fault)

/-- Writes a text to the output. -/
def write (text : String) : Run Unit := do
  let m ← get
  let (sink, fault) := m.sink.write text
  set { m with sink := sink }
  match fault with
  | some fault => throw (.output fault)
  | none => return

/-- Writes the text of a value and a line break. -/
def print (value : Value) : Run Unit := do
  write value.text
  write "\n"

/-- Flushes the output. -/
def flush : Run Unit := do
  match (← get).sink.flush with
  | some fault => throw (.output fault)
  | none => return

/-! ## Instances -/

/-- Makes an instance without fields. -/
def newObject (c : Class) : Run Object := do
  let identity ← newIdentity
  modify fun m => { m with fields := m.fields.insert identity ∅ }
  return ⟨identity, c⟩

/-- A method as a function of its own: a new frame around its parameters holds the instance. -/
def bind (method : Closure) (o : Object) : Run Closure := do
  let frame ← newFrame method.environment
  defineIn frame "self" (.object o)
  return { method with identity := ← newIdentity, environment := frame }

/-- The value of a property: a field, or else a method bound to the instance. -/
def getProperty (o : Object) (name : Ident) : Run Value := do
  let m ← get
  match (m.fieldsOf o)[name.name]? with
  | some value => return value
  | none =>
    match o.cls.methods[name.name]? with
    | some method => return .closure (← bind method o)
    | none => refuse name.line (.undefinedProperty name.name)

/-- Gives a field of an instance a value, whether or not it had one. -/
def setProperty (o : Object) (name : String) (value : Value) : Run Unit :=
  modify fun m => { m with fields := m.fields.insert o.identity ((m.fieldsOf o).insert name value) }

end Run

end Rill
