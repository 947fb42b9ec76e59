import Rill.Session

/-!
# Lexical scoping without frames

An evaluator that knows neither frames nor depths. Every declaration in a scope that is executed
makes a new location for its variable, and the name stands for that location in the rest of the
scope, the first value of the variable included. The names in force are a table that never changes:
a function or class keeps the table of its declaration, its own name included, and going on in a
scope means to go on with a larger table. A name that is not in the table is looked up among the
globals when it is used.
-/

namespace Rill.Lexical

/-- Where the value of a variable is kept. -/
abbrev Location := Nat

/-- The names in force at some place, with the locations they stand for. -/
abbrev Env := Table Location

/-- What is around a statement: no scope at all, or scopes with some names in force. -/
inductive Context
  | top
  | within (env : Env)

/-- The names in force in a context. None are outside all scopes. -/
def Context.env : Context → Env
  | top => ∅
  | within env => env

/-- A variable. -/
inductive Variable
  | global (name : String)
  | cell (location : Location)

/-- What changes while a program runs. -/
structure Store where
  cells : Std.TreeMap Location (Value Env)
  nextLocation : Location
  globals : Table (Value Env)
  /-- The fields of every instance, by its identity. -/
  fields : Std.TreeMap Identity (Table (Value Env))
  nextIdentity : Identity
  sink : Sink
  /-- How often a function of the host has been called. -/
  hostCalls : Nat

/-- A part of a run, which changes the store and may halt. -/
abbrev Run := EStateM Halt Store

namespace Store

/-- A store with the clock among its globals, and nothing else. -/
def start (sink : Sink) : Store where
  cells := ∅
  nextLocation := 0
  globals := (∅ : Table (Value Env)).insert Native.clock.name (.native .clock)
  fields := ∅
  nextIdentity := 0
  sink := sink
  hostCalls := 0

/-- Gives a variable a value. -/
def assign (s : Store) (value : Value Env) : Variable → Store
  | .global name => { s with globals := s.globals.insert name value }
  | .cell location => { s with cells := s.cells.insert location value }

/-- The fields of an instance. -/
def fieldsOf (s : Store) (o : Object Env) : Table (Value Env) := (s.fields[o.identity]?).getD ∅

end Store

namespace Run

/-- Halts with a fault of the program. -/
def refuse {α : Type} (line : Nat) (cause : RuntimeCause) : Run α :=
  throw (.fault ⟨line, cause⟩)

/-- Gives out an identity that has not been given out before. -/
def newIdentity : Run Identity :=
  modifyGet fun s => (s.nextIdentity, { s with nextIdentity := s.nextIdentity + 1 })

/-- Counts a call of the host, and tells how many there were before it. -/
def countHostCall : Run Nat :=
  modifyGet fun s => (s.hostCalls, { s with hostCalls := s.hostCalls + 1 })

/-! ## Variables -/

/-- Makes a location for a variable. -/
def newLocation : Run Location :=
  modifyGet fun s => (s.nextLocation, { s with nextLocation := s.nextLocation + 1 })

/-- Declares a name, and gives its variable and the context of the rest of its scope. -/
def declare (name : String) : Context → Run (Context × Variable)
  | .top => return (.top, .global name)
  | .within env => do
    let location ← newLocation
    return (.within (env.insert name location), .cell location)

/-- Gives a variable a value. -/
def store (v : Variable) (value : Value Env) : Run Unit := modify fun s => s.assign value v

/-- The value of a name. -/
def lookUp (env : Env) (name : String) (line : Nat) : Run (Value Env) := do
  let s ← get
  match env[name]? with
  | some location =>
    match s.cells[location]? with
    | some value => return value
    | none => throw (.breach (.unboundSlot name))
  | none =>
    match s.globals[name]? with
    | some value => return value
    | none => refuse line (.undefinedVariable name)

/-- Gives a name another value. -/
def assign (env : Env) (name : String) (value : Value Env) (line : Nat) : Run Unit := do
  let s ← get
  match env[name]? with
  | some location => store (.cell location) value
  | none =>
    match s.globals[name]? with
    | some _ => store (.global name) value
    | none => refuse line (.undefinedVariable name)

/-! ## Output -/

/-- Writes a text to the output. -/
def write (text : String) : Run Unit := do
  let s ← get
  let (sink, fault) := s.sink.write text
  set { s with sink := sink }
  match fault with
  | some fault => throw (.output fault)
  | none => return

/-- Writes the text of a value and a line break. -/
def print (value : Value Env) : Run Unit := do
  write value.text
  write "\n"

/-- Flushes the output. -/
def flush : Run Unit := do
  match (← get).sink.flush with
  | some fault => throw (.output fault)
  | none => return

/-! ## Instances -/

/-- Makes an instance without fields. -/
def newObject (c : Class Env) : Run (Object Env) := do
  let identity ← newIdentity
  modify fun s => { s with fields := s.fields.insert identity ∅ }
  return ⟨identity, c⟩

/-- A method as a function of its own, for which `self` stands for a new location. -/
def bind (method : Closure Env) (o : Object Env) : Run (Closure Env) := do
  let location ← newLocation
  store (.cell location) (.object o)
  return { method with
    identity := ← newIdentity, environment := method.environment.insert "self" location }

/-- The value of a property: a field, or else a method bound to the instance. -/
def getProperty (o : Object Env) (name : Ident) : Run (Value Env) := do
  let s ← get
  match (s.fieldsOf o)[name.name]? with
  | some value => return value
  | none =>
    match o.cls.methods[name.name]? with
    | some method => return .closure (← bind method o)
    | none => refuse name.line (.undefinedProperty name.name)

/-- Gives a field of an instance a value, whether or not it had one. -/
def setProperty (o : Object Env) (name : String) (value : Value Env) : Run Unit :=
  modify fun s => { s with fields := s.fields.insert o.identity ((s.fieldsOf o).insert name value) }

/-! ## Sequences -/

/-- Executes statements until one returns, each in the context that the former one left. -/
def executeAll (execute : Context → Stmt → Run (Context × Flow Env)) :
    Context → List Stmt → Run (Flow Env)
  | _, [] => return .next
  | context, s :: rest => do
    let (behind, flow) ← execute context s
    match flow with
    | .next => executeAll execute behind rest
    | .exit value => return .exit value

/-- Evaluates expressions from left to right. -/
def evaluateAll (evaluate : Expr → Run (Value Env)) : List Expr → Run (List (Value Env))
  | [] => return []
  | e :: rest => do
    let value ← evaluate e
    let values ← evaluateAll evaluate rest
    return value :: values

/-- Evaluates an expression that may be absent, in which case the value is `nil`. -/
def evaluateOption (evaluate : Expr → Run (Value Env)) : Option Expr → Run (Value Env)
  | some e => evaluate e
  | none => return .nil

/-! ## Calls -/

/-- Makes new locations for parameters and gives them their arguments. -/
def bindParams : Env → List Ident → List (Value Env) → Run Env
  | env, name :: names, value :: values => do
    let location ← newLocation
    store (.cell location) value
    bindParams (env.insert name.name location) names values
  | env, _, _ => return env

/-- The instance that an initializer works on. -/
def instanceOf (c : Closure Env) : Run (Value Env) := do
  let s ← get
  match (c.environment["self"]?).bind fun location => s.cells[location]? with
  | some instance_ => return instance_
  | none => throw (.breach (.unboundSlot "self"))

/--
Calls a function with as many arguments as it takes. The value is what it returns; an initializer
gives its instance, however it ends.
-/
def callClosure (execute : Context → Stmt → Run (Context × Flow Env)) (c : Closure Env)
    (arguments : List (Value Env)) : Run (Value Env) := do
  let env ← bindParams c.environment c.routine.params arguments
  let flow ← executeAll execute (.within env) c.routine.body
  if c.isInitializer then instanceOf c
  else
    match flow with
    | .next => return .nil
    | .exit value => return value

/-- Makes an instance and runs the initializer of its class on it, if there is one. -/
def instantiate (execute : Context → Stmt → Run (Context × Flow Env)) (c : Class Env)
    (arguments : List (Value Env)) : Run (Value Env) := do
  let o ← newObject c
  match c.initializer? with
  | none => return .object o
  | some initializer =>
    let bound ← bind initializer o
    let _ ← callClosure execute bound arguments
    return .object o

/-- Calls a function of the host. -/
def callNative (host : Hosting Env) (f : Native) (arguments : List (Value Env)) (line : Nat) :
    Run (Value Env) := do
  let call ← countHostCall
  match host.answer call f arguments with
  | .ok value => return value
  | .error message => refuse line (.native f.name message)

/-- Calls a value with as many arguments as it takes. -/
def callWith (host : Hosting Env) (execute : Context → Stmt → Run (Context × Flow Env))
    (arguments : List (Value Env)) (line : Nat) : Value Env → Run (Value Env)
  | .closure c => callClosure execute c arguments
  | .native f => callNative host f arguments line
  | .cls c => instantiate execute c arguments
  | _ => refuse line .notCallable

/--
Checks that a value can be called, evaluates the arguments, checks their number, and calls it.
-/
def callValue (host : Hosting Env) (evaluate : Expr → Run (Value Env))
    (execute : Context → Stmt → Run (Context × Flow Env)) (callee : Value Env)
    (arguments : List Expr) (line : Nat) : Run (Value Env) := do
  match Rill.Run.arity? callee with
  | none => refuse line .notCallable
  | some arity =>
    let values ← evaluateAll evaluate arguments
    if values.length = arity then callWith host execute values line callee
    else refuse line (.wrongArity arity values.length)

/-! ## Expressions -/

/-- Takes the result of an operator. -/
def operate (line : Nat) : Except OperandRule (Value Env) → Run (Value Env)
  | .ok value => return value
  | .error rule => refuse line (.operands rule)

/-- Takes an instance out of the value in front of a property. -/
def asObject (line : Nat) : Value Env → Run (Object Env)
  | .object o => return o
  | _ => refuse line .notAnInstance

/--
Evaluates an expression among names in force, given how its parts are evaluated and functions
executed.
-/
def evaluateWith (host : Hosting Env) (evaluate : Expr → Run (Value Env))
    (execute : Context → Stmt → Run (Context × Flow Env)) (env : Env) : Expr → Run (Value Env)
  | .literal value => return .ofLiteral value
  | .group inner => evaluate inner
  | .unary operator operand line => do
    let value ← evaluate operand
    operate line (operator.apply value)
  | .binary left operator right line => do
    let a ← evaluate left
    let b ← evaluate right
    operate line (operator.apply a b)
  | .logical left operator right => do
    let value ← evaluate left
    if operator.isDecidedBy value then return value else evaluate right
  | .var _ name => lookUp env name.name name.line
  | .assign _ name e => do
    let value ← evaluate e
    assign env name.name value name.line
    return value
  | .call callee arguments line => do
    let value ← evaluate callee
    callValue host evaluate execute value arguments line
  | .get object name => do
    let o ← asObject name.line (← evaluate object)
    getProperty o name
  | .set object name e => do
    let o ← asObject name.line (← evaluate object)
    let value ← evaluate e
    setProperty o name.name value
    return value
  | .selfRef _ line => lookUp env "self" line

/-! ## Statements -/

/-- The methods of a class declared among names in force. Of two with one name, the later counts. -/
def makeMethods (env : Env) : Table (Closure Env) → List Routine → Run (Table (Closure Env))
  | methods, [] => return methods
  | methods, routine :: rest => do
    let method : Closure Env := ⟨← newIdentity, routine, env, routine.isInitializer⟩
    makeMethods env (methods.insert routine.name.name method) rest

/-- Whether a loop goes round again: it does without a condition. -/
def goesOn (evaluate : Expr → Run (Value Env)) : Option Expr → Run Bool
  | some condition => do return (← evaluate condition).isTruthy
  | none => return true

/-- Goes round a loop among names in force. Each round starts with the same names. -/
def repeatLoop (evaluate : Expr → Run (Value Env))
    (execute : Context → Stmt → Run (Context × Flow Env)) (env : Env)
    (condition increment : Option Expr) (body : List Stmt) : (effort : Nat) → Run (Flow Env)
  | 0 => throw .spent
  | effort + 1 => do
    if ← goesOn evaluate condition then
      match ← executeAll execute (.within env) body with
      | .exit value => return .exit value
      | .next =>
        let _ ← evaluateOption evaluate increment
        repeatLoop evaluate execute env condition increment body effort
    else return .next

/-- Makes the variable of a loop, if it has one, and gives it its first value. -/
def startLoop (evaluate : Env → Expr → Run (Value Env)) (env : Env) : Option LoopVar → Run Env
  | some counter => do
    let location ← newLocation
    let inner := env.insert counter.name.name location
    let value ← evaluate inner counter.value
    store (.cell location) value
    return inner
  | none => return env

/--
Executes a statement, given how its parts are evaluated and executed. It leaves the context for what
follows it in its scope.
-/
def executeWith (evaluate : Env → Expr → Run (Value Env))
    (execute : Context → Stmt → Run (Context × Flow Env)) (effort : Nat) (context : Context) :
    Stmt → Run (Context × Flow Env)
  | .expression e => do
    let _ ← evaluate context.env e
    return (context, .next)
  | .print e => do
    let value ← evaluate context.env e
    print value
    return (context, .next)
  | .declare name initializer => do
    let (inner, v) ← declare name.name context
    let value ← evaluateOption (evaluate inner.env) initializer
    store v value
    return (inner, .next)
  | .block body => do
    return (context, ← executeAll execute (.within context.env) body)
  | .function routine => do
    let (inner, v) ← declare routine.name.name context
    let closure : Closure Env := ⟨← newIdentity, routine, inner.env, false⟩
    store v (.closure closure)
    return (inner, .next)
  | .branch condition thenBody elseBody => do
    if (← evaluate context.env condition).isTruthy then
      return (context, ← executeAll execute (.within context.env) thenBody)
    else
      match elseBody with
      | some body => return (context, ← executeAll execute (.within context.env) body)
      | none => return (context, .next)
  | .loop counter condition increment body => do
    let env ← startLoop evaluate context.env counter
    return (context, ← repeatLoop (evaluate env) execute env condition increment body effort)
  | .exit _ value => do
    return (context, .exit (← evaluateOption (evaluate context.env) value))
  | .classDef name methods => do
    let (inner, v) ← declare name.name context
    let methods ← makeMethods inner.env ∅ methods
    let cls : Class Env := ⟨← newIdentity, name.name, methods⟩
    store v (.cls cls)
    return (inner, .next)

mutual

/-- Evaluates an expression among names in force, with the given effort. -/
def evaluate (host : Hosting Env) : (effort : Nat) → Env → Expr → Run (Value Env)
  | 0, _, _ => throw .spent
  | effort + 1, env, e => evaluateWith host (evaluate host effort env) (execute host effort) env e

/-- Executes a statement in a context, with the given effort. -/
def execute (host : Hosting Env) : (effort : Nat) → Context → Stmt → Run (Context × Flow Env)
  | 0, _, _ => throw .spent
  | effort + 1, context, s =>
    executeWith (evaluate host effort) (execute host effort) effort context s

end

/-! ## Programs -/

/-- Executes the statements of a program outside all scopes. None of them may return. -/
def runProgram (host : Hosting Env) (effort : Nat) : List Stmt → Run Unit
  | [] => return
  | s :: rest => do
    let (_, flow) ← execute host effort .top s
    match flow with
    | .next => runProgram host effort rest
    | .exit value => throw (.breach (.strayReturn value.text))

/--
Runs a program and flushes its output, also if the program is at fault; then a fault of flushing
is what counts.
-/
def interpret (host : Hosting Env) (effort : Nat) (program : List Stmt) : Run Unit := fun s =>
  match runProgram host effort program s with
  | .ok _ s => flush s
  | .error (.fault fault) s =>
    match flush s with
    | .ok _ s => .error (.fault fault) s
    | .error halt s => .error halt s
  | .error (.output fault) s =>
    match flush s with
    | .ok _ s => .error (.output fault) s
    | .error halt s => .error halt s
  | .error halt s => .error halt s

end Run

/-- What is left when a source text has been run. -/
structure Outcome where
  store : Store
  failure : Option Failure

/-- Runs a source text. Its statements are those of `compile`; the table of depths is not used. -/
def Store.run (host : Hosting Env) (effort : Nat) (s : Store) (source : String)
    (fresh : Occurrence) : Outcome :=
  match compile source fresh with
  | (.error faults, _) => ⟨s, some (.static faults)⟩
  | (.ok program, _) =>
    match Run.interpret host effort program.statements s with
    | .ok _ s => ⟨s, none⟩
    | .error halt s => ⟨s, some (.runtime halt)⟩

end Rill.Lexical
