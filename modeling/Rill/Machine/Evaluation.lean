import Rill.Machine.Basic
import Rill.Machine.Operators

/-!
# Evaluation

Expressions are evaluated to values, and statements executed, from left to right. Each rule is
written over the evaluation of the parts; `evaluate` and `execute` tie the rules together and take
an effort, which bounds how deep evaluation nests and how often a loop goes round. A run that
spends it halts with `Halt.spent` and with nothing else, so effort only decides how far a run gets.
-/

namespace Rill

/-- How a statement ends: at its own end, or at a return. -/
inductive Flow (ε : Type := FrameId)
  | next
  | exit (value : Value ε)

namespace Run

/-! ## Sequences -/

/-- Executes statements until one returns. -/
def executeAll (execute : Stmt → Run Flow) : List Stmt → Run Flow
  | [] => return .next
  | s :: rest => do
    match ← execute s with
    | .next => executeAll execute rest
    | .exit value => return .exit value

/-- Evaluates expressions from left to right. -/
def evaluateAll (evaluate : Expr → Run Value) : List Expr → Run (List Value)
  | [] => return []
  | e :: rest => do
    let value ← evaluate e
    let values ← evaluateAll evaluate rest
    return value :: values

/-- Evaluates an expression that may be absent, in which case the value is `nil`. -/
def evaluateOption (evaluate : Expr → Run Value) : Option Expr → Run Value
  | some e => evaluate e
  | none => return .nil

/-! ## Calls -/

/-- Gives parameters their arguments in a frame. -/
def bindParams (frame : FrameId) : List Ident → List Value → Run Unit
  | name :: names, value :: values => do
    defineIn frame name.name value
    bindParams frame names values
  | _, _ => return

/--
Calls a function with as many arguments as it takes. The value is what it returns; an initializer
gives its instance, however it ends.
-/
def callClosure (execute : Stmt → Run Flow) (c : Closure) (arguments : List Value) : Run Value := do
  let frame ← newFrame c.environment
  bindParams frame c.routine.params arguments
  let flow ← inFrame frame (executeAll execute c.routine.body)
  if c.isInitializer then
    match (← get).forest.getAt c.environment 0 "self" with
    | .ok instance_ => return instance_
    | .error breach => throw (.breach breach)
  match flow with
  | .next => return .nil
  | .exit value => return value

/-- Makes an instance and runs the initializer of its class on it, if there is one. -/
def instantiate (execute : Stmt → Run Flow) (c : Class) (arguments : List Value) : Run Value := do
  let o ← newObject c
  match c.initializer? with
  | none => return .object o
  | some initializer =>
    let bound ← bind initializer o
    let _ ← callClosure execute bound arguments
    return .object o

/-- Calls a function of the host. -/
def callNative (host : Hosting) (f : Native) (arguments : List Value) (line : Nat) :
    Run Value := do
  let call ← countHostCall
  match host.answer call f arguments with
  | .ok value => return value
  | .error message => refuse line (.native f.name message)

/-- How many arguments a value takes when it is called, if it can be. -/
def arity? {ε : Type} : Value ε → Option Nat
  | .closure c => some c.arity
  | .native f => some f.arity
  | .cls c => some c.arity
  | _ => none

/-- Calls a value with as many arguments as it takes. -/
def callWith (host : Hosting) (execute : Stmt → Run Flow) (arguments : List Value) (line : Nat) :
    Value → Run Value
  | .closure c => callClosure execute c arguments
  | .native f => callNative host f arguments line
  | .cls c => instantiate execute c arguments
  | _ => refuse line .notCallable

/--
Checks that a value can be called, evaluates the arguments, checks their number, and calls it.
-/
def callValue (host : Hosting) (evaluate : Expr → Run Value) (execute : Stmt → Run Flow)
    (callee : Value) (arguments : List Expr) (line : Nat) : Run Value := do
  match arity? callee with
  | none => refuse line .notCallable
  | some arity =>
    let values ← evaluateAll evaluate arguments
    if values.length = arity then callWith host execute values line callee
    else refuse line (.wrongArity arity values.length)

/-! ## Expressions -/

/-- Takes the result of an operator. -/
def operate (line : Nat) : Except OperandRule Value → Run Value
  | .ok value => return value
  | .error rule => refuse line (.operands rule)

/-- Takes an instance out of the value in front of a property. -/
def asObject (line : Nat) : Value → Run Object
  | .object o => return o
  | _ => refuse line .notAnInstance

/-- Evaluates an expression, given how its parts are evaluated and functions executed. -/
def evaluateWith (host : Hosting) (evaluate : Expr → Run Value) (execute : Stmt → Run Flow) :
    Expr → Run Value
  | .literal value => return .ofLiteral value
  | .group inner => evaluate inner
  | .unary operator operand line => do
    let value ← evaluate operand
    operate line (operator.apply value)
  | .binary left operator right line => do
    let a ← evaluate left
    let b ← evaluate right
    operate line (operator.apply a b)
  | .logical left operator right => do
    let value ← evaluate left
    if operator.isDecidedBy value then return value else evaluate right
  | .var id name => lookUp id name.name name.line
  | .assign id name e => do
    let value ← evaluate e
    assign id name.name value name.line
    return value
  | .call callee arguments line => do
    let value ← evaluate callee
    callValue host evaluate execute value arguments line
  | .get object name => do
    let o ← asObject name.line (← evaluate object)
    getProperty o name
  | .set object name e => do
    let o ← asObject name.line (← evaluate object)
    let value ← evaluate e
    setProperty o name.name value
    return value
  | .selfRef id line => lookUp id "self" line

/-! ## Statements -/

/-- The methods of a class declared in a frame. Of two with one name, the later one counts. -/
def makeMethods (frame : FrameId) : Table Closure → List Routine → Run (Table Closure)
  | methods, [] => return methods
  | methods, routine :: rest => do
    let method : Closure := ⟨← newIdentity, routine, frame, routine.isInitializer⟩
    makeMethods frame (methods.insert routine.name.name method) rest

/-- Whether a loop goes round again: it does without a condition. -/
def goesOn (evaluate : Expr → Run Value) : Option Expr → Run Bool
  | some condition => do return (← evaluate condition).isTruthy
  | none => return true

/-- Goes round a loop in the current frame, with a new frame for the body each time. -/
def repeatLoop (evaluate : Expr → Run Value) (execute : Stmt → Run Flow)
    (condition increment : Option Expr) (body : List Stmt) : (effort : Nat) → Run Flow
  | 0 => throw .spent
  | effort + 1 => do
    if ← goesOn evaluate condition then
      match ← inNewFrame (executeAll execute body) with
      | .exit value => return .exit value
      | .next =>
        let _ ← evaluateOption evaluate increment
        repeatLoop evaluate execute condition increment body effort
    else return .next

/-- Gives the variable of a loop its first value. -/
def startLoop (evaluate : Expr → Run Value) : Option LoopVar → Run Unit
  | some counter => do
    let value ← evaluate counter.value
    define counter.name.name value
  | none => return

/-- Executes a statement, given how its parts are evaluated and executed. -/
def executeWith (evaluate : Expr → Run Value) (execute : Stmt → Run Flow) (effort : Nat) :
    Stmt → Run Flow
  | .expression e => do
    let _ ← evaluate e
    return .next
  | .print e => do
    let value ← evaluate e
    print value
    return .next
  | .declare name initializer => do
    let value ← evaluateOption evaluate initializer
    define name.name value
    return .next
  | .block body => inNewFrame (executeAll execute body)
  | .function routine => do
    let closure : Closure := ⟨← newIdentity, routine, (← get).current, false⟩
    define closure.name (.closure closure)
    return .next
  | .branch condition thenBody elseBody => do
    if (← evaluate condition).isTruthy then inNewFrame (executeAll execute thenBody)
    else
      match elseBody with
      | some body => inNewFrame (executeAll execute body)
      | none => return .next
  | .loop counter condition increment body =>
    inNewFrame do
      startLoop evaluate counter
      repeatLoop evaluate execute condition increment body effort
  | .exit _ value => do
    return .exit (← evaluateOption evaluate value)
  | .classDef name methods => do
    let methods ← makeMethods (← get).current ∅ methods
    let cls : Class := ⟨← newIdentity, name.name, methods⟩
    define name.name (.cls cls)
    return .next

mutual

/-- Evaluates an expression with the given effort. -/
def evaluate (host : Hosting) : (effort : Nat) → Expr → Run Value
  | 0, _ => throw .spent
  | effort + 1, e => evaluateWith host (evaluate host effort) (execute host effort) e

/-- Executes a statement with the given effort. -/
def execute (host : Hosting) : (effort : Nat) → Stmt → Run Flow
  | 0, _ => throw .spent
  | effort + 1, s => executeWith (evaluate host effort) (execute host effort) effort s

end

/-! ## Programs -/

/-- Executes the statements of a program, none of which may return. -/
def runProgram (host : Hosting) (effort : Nat) : List Stmt → Run Unit
  | [] => return
  | s :: rest => do
    match ← execute host effort s with
    | .next => runProgram host effort rest
    | .exit value => throw (.breach (.strayReturn value.text))

/--
Runs a program and flushes its output, also if the program is at fault; then a fault of flushing
is what counts.
-/
def interpret (host : Hosting) (effort : Nat) (program : List Stmt) : Run Unit := fun m =>
  match runProgram host effort program m with
  | .ok _ m => flush m
  | .error (.fault fault) m =>
    match flush m with
    | .ok _ m => .error (.fault fault) m
    | .error halt m => .error halt m
  | .error (.output fault) m =>
    match flush m with
    | .ok _ m => .error (.output fault) m
    | .error halt m => .error halt m
  | .error halt m => .error halt m

end Run

end Rill
