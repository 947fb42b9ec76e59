import Rill.Proofs.Machine.Continuity

/-!
# Code under inspection

What is said of all parts of a run is said by an inspection: it asks something of every expression,
with the machine in front of it and the result of evaluating it, of every statement, every call and
every property that is read or written. Code under inspection runs as it does otherwise, but breaks
off with an alarm at the first of its parts that does not pass. So a run meets an inspection
throughout if it is the same run under inspection, whatever the alarm. Runs may also be stopped on
the way, so that what is said of the end of a run is said of all machines that it comes by.

All code has surroundings, which the inspection is told: the globals for the code of a program, and
for the body of a function that is called the frame that the function keeps.
-/

namespace Rill

/-- How a part of a run has ended. -/
abbrev Run.Ending (α : Type) := EStateM.Result Halt Machine α

/-- Some alarm is not why a run has halted. -/
theorem Run.Ending.exists_alarm {α : Type} (ending : Run.Ending α) :
    ∃ alarm, ∀ m, ending ≠ .error alarm m := by
  cases ending with
  | ok a m => exact ⟨.spent, fun _ impossible => nomatch impossible⟩
  | error halt m =>
      by_cases spent : halt = .spent
      · exact ⟨.fault ⟨0, .notCallable⟩, fun _ same => by cases spent; cases same⟩
      · exact ⟨.spent, fun _ same => spent (by cases same; rfl)⟩

/-- The machines that a run is stopped on, and how it halts then. -/
abbrev Run.Stops := Machine → Option Halt

/-- No run is stopped. -/
def Run.Stops.never : Run.Stops := fun _ => none

/-- What is asked of the parts of a run. -/
structure Inspection where
  /-- An expression and its surroundings, the machine that it is evaluated on, and how that ends. -/
  expression : FrameId → Expr → Machine → Run.Ending Value → Prop
  /-- A statement and its surroundings, the machine that it is executed on, and how that ends. -/
  statement : FrameId → Stmt → Machine → Run.Ending Flow → Prop
  /-- A value that is called, the machine when its arguments are there, and how the call ends. -/
  call : Value → Machine → Run.Ending Value → Prop
  /-- An instance that has been made, the machine, and how its initializer is bound to it. -/
  binding : Object → Machine → Run.Ending Closure → Prop
  /-- An instance that is read under a name, the machine, and how that ends. -/
  read : Object → Ident → Machine → Run.Ending Value → Prop
  /-- An instance that a field of some name is written to, and the value that is written. -/
  write : Object → String → Value → Prop

namespace Inspection

/-- But for writes, one inspection asks no more than another one. -/
structure NoMoreThan (i other : Inspection) : Prop where
  expression : ∀ {home e m ending},
    other.expression home e m ending → i.expression home e m ending
  statement : ∀ {home s m ending}, other.statement home s m ending → i.statement home s m ending
  call : ∀ {v m ending}, other.call v m ending → i.call v m ending
  binding : ∀ {o m ending}, other.binding o m ending → i.binding o m ending
  read : ∀ {o name m ending}, other.read o name m ending → i.read o name m ending

theorem NoMoreThan.refl (i : Inspection) : i.NoMoreThan i := ⟨id, id, id, id, id⟩

/-- An inspection that asks for nothing but that a field of an instance is not written to. -/
def sparing (identity : Identity) (name : String) : Inspection where
  expression _ _ _ _ := True
  statement _ _ _ _ := True
  call _ _ _ := True
  binding _ _ _ := True
  read _ _ _ _ := True
  write o key _ := ¬ (o.identity = identity ∧ key = name)

theorem sparing_noMoreThan (identity : Identity) (name : String) (other : Inspection) :
    (sparing identity name).NoMoreThan other :=
  ⟨fun _ => trivial, fun _ => trivial, fun _ => trivial, fun _ => trivial, fun _ => trivial⟩

end Inspection

namespace Run

variable {α : Type}

/-! ## Stopping -/

/-- Halts on the machines that a run is stopped on. -/
def stop (stops : Stops) : Run Unit := fun m =>
  match stops m with
  | some reason => .error reason m
  | none => .ok () m

theorem stop_bind_of_some {stops : Stops} {m : Machine} {reason : Halt}
    (stopped : stops m = some reason) (x : Run α) : (stop stops >>= fun _ => x) m =
      .error reason m :=
  bind_of_error (by rw [stop, stopped])

theorem stop_bind_of_none {stops : Stops} {m : Machine} (goesOn : stops m = none) (x : Run α) :
    (stop stops >>= fun _ => x) m = x m :=
  bind_of_ok (by rw [stop, goesOn])

/-- Runs something, unless it is stopped in front of it, and may be stopped behind it. -/
def stopping (stops : Stops) (x : Run α) : Run α := do
  stop stops
  let a ← x
  stop stops
  return a

theorem stopping_never (x : Run α) : stopping .never x = x := by
  funext m
  change EStateM.bind x (fun a => pure a) m = x m
  unfold EStateM.bind
  cases x m <;> rfl

mutual

/-- Evaluates an expression, unless it is stopped in front of some part, or behind it. -/
def evaluateStopping (stops : Stops) (host : Hosting) : (effort : Nat) → Expr → Run Value
  | 0, _ => throw .spent
  | effort + 1, e =>
    stopping stops (evaluateWith host (evaluateStopping stops host effort)
      (executeStopping stops host effort) e)

/-- Executes a statement, unless it is stopped in front of some part, or behind it. -/
def executeStopping (stops : Stops) (host : Hosting) : (effort : Nat) → Stmt → Run Flow
  | 0, _ => throw .spent
  | effort + 1, s =>
    stopping stops (executeWith (evaluateStopping stops host effort)
      (executeStopping stops host effort) effort s)

end

theorem stopping_never_of_effort (host : Hosting) (effort : Nat) :
    evaluateStopping .never host effort = evaluate host effort ∧
      executeStopping .never host effort = execute host effort := by
  induction effort with
  | zero => exact ⟨funext fun _ => rfl, funext fun _ => rfl⟩
  | succ effort ih =>
      constructor
      · funext e
        rw [evaluateStopping, evaluate, stopping_never, ih.1, ih.2]
      · funext s
        rw [executeStopping, execute, stopping_never, ih.1, ih.2]

/-! ## Inspecting -/

open Classical in
/-- Runs something and raises an alarm if it does not pass. -/
noncomputable def inspect (passes : Machine → Ending α → Prop) (alarm : Halt) (x : Run α) : Run α :=
  fun m => if passes m (x m) then x m else .error alarm (Machine.ofResult (x m))

theorem inspect_of_passes {passes : Machine → Ending α → Prop} {x : Run α} {m : Machine}
    (passed : passes m (x m)) (alarm : Halt) : inspect passes alarm x m = x m :=
  if_pos passed

/-- What has raised the alarm raises it, whatever is asked. -/
theorem inspect_of_raised {x : Run α} {alarm : Halt} {m n : Machine} (raised : x m = .error alarm n)
    (passes : Machine → Ending α → Prop) : inspect passes alarm x m = .error alarm n := by
  rw [inspect, raised]
  exact ite_self _

section

variable (i : Inspection) (alarm : Halt)

/-- Makes an instance, and binds and runs the initializer of its class under inspection. -/
noncomputable def instantiateInspected (execute : FrameId → Stmt → Run Flow) (c : Class)
    (arguments : List Value) : Run Value := do
  let o ← newObject c
  match c.initializer? with
  | none => return .object o
  | some initializer =>
    let bound ← inspect (i.binding o) alarm (bind initializer o)
    let _ ← callClosure (execute bound.environment) bound arguments
    return .object o

/-- Calls a value with as many arguments as it takes, its code under inspection. -/
noncomputable def callWithInspected (host : Hosting) (execute : FrameId → Stmt → Run Flow)
    (arguments : List Value) (line : Nat) : Value → Run Value
  | .closure c => callClosure (execute c.environment) c arguments
  | .native f => callNative host f arguments line
  | .cls c => instantiateInspected i alarm execute c arguments
  | _ => refuse line .notCallable

/-- Calls a value under inspection, given how parts are evaluated and functions executed. -/
noncomputable def callInspected (host : Hosting) (evaluate : Expr → Run Value)
    (execute : FrameId → Stmt → Run Flow) (callee : Value) (arguments : List Expr) (line : Nat) :
    Run Value :=
  match arity? callee with
  | none => refuse line .notCallable
  | some arity => do
    let values ← evaluateAll evaluate arguments
    if values.length = arity then
      inspect (i.call callee) alarm (callWithInspected i alarm host execute values line callee)
    else refuse line (.wrongArity arity values.length)

open Classical in
/-- Writes to a field under inspection. -/
noncomputable def setInspected (o : Object) (name : String) (value : Value) : Run Unit :=
  if i.write o name value then setProperty o name value else throw alarm

theorem setInspected_of_write {o : Object} {name : String} {value : Value}
    (allowed : i.write o name value) :
    setInspected i alarm o name value = setProperty o name value :=
  if_pos allowed

theorem setInspected_of_not {o : Object} {name : String} {value : Value}
    (forbidden : ¬ i.write o name value) : setInspected i alarm o name value = throw alarm :=
  if_neg forbidden

/--
Evaluates an expression from its parts, with the calls, reads and writes in it under inspection.
-/
noncomputable def evaluateInspectedWith (host : Hosting) (home : FrameId)
    (evaluate : Expr → Run Value) (execute : FrameId → Stmt → Run Flow) : Expr → Run Value
  | .call callee arguments line => do
    let value ← evaluate callee
    callInspected i alarm host evaluate execute value arguments line
  | .get object name => do
    let o ← asObject name.line (← evaluate object)
    inspect (i.read o name) alarm (getProperty o name)
  | .set object name e => do
    let o ← asObject name.line (← evaluate object)
    let value ← evaluate e
    setInspected i alarm o name.name value
    return value
  | e => evaluateWith host evaluate (execute home) e

mutual

/-- Evaluates an expression under inspection, unless it is stopped. -/
noncomputable def evaluateInspected (stops : Stops) (host : Hosting) :
    (effort : Nat) → (home : FrameId) → Expr → Run Value
  | 0, _, _ => throw .spent
  | effort + 1, home, e =>
    stopping stops (inspect (i.expression home e) alarm (evaluateInspectedWith i alarm host home
      (evaluateInspected stops host effort home) (executeInspected stops host effort) e))

/-- Executes a statement under inspection, unless it is stopped. -/
noncomputable def executeInspected (stops : Stops) (host : Hosting) :
    (effort : Nat) → (home : FrameId) → Stmt → Run Flow
  | 0, _, _ => throw .spent
  | effort + 1, home, s =>
    stopping stops (inspect (i.statement home s) alarm
      (executeWith (evaluateInspected stops host effort home)
        (executeInspected stops host effort home) effort s))

end

end

end Run

end Rill
