import Rill.Machine.Evaluation
import Rill.Program

/-!
# Sessions

A session runs one source text after the other on one machine, so later texts see the globals of
earlier ones. A text with faults is not run at all. One that halts keeps what it has done so far,
and the session goes on behind it.
-/

namespace Rill

/-- The function of the host that tells the time. -/
def Native.clock : Native := ⟨"clock", 0⟩

/-- A host with a clock that shows one reading throughout, and no other function. -/
def Host.withClock {ε : Type} (reading : Number) : Host ε := fun f _ =>
  if f = .clock then .ok (.number reading) else .error "no such function"

/-- A host with a clock that goes on from call to call and may fail, and no other function. -/
def Hosting.withClock {ε : Type} (readings : Nat → Except String Number) : Hosting ε where
  answer call f _ :=
    if f = .clock then Value.number <$> readings call else .error "no such function"

/-- A machine with the clock among its globals. -/
def Machine.start (sink : Sink) : Machine :=
  (Machine.empty sink).defineGlobal Native.clock.name (.native .clock)

/-- Why a source text did not run to its end. -/
inductive Failure
  /-- The text has faults, and nothing of it was run. -/
  | static (faults : List Diagnostic)
  /-- The run halted. -/
  | runtime (halt : Halt)

namespace Failure

/-- The exit status for a failure. -/
def exitCode : Failure → Nat
  | static _ => 65
  | runtime _ => 70

/-- The text of every error of a failure. -/
def messages : Failure → List String
  | static faults => faults.map Diagnostic.message
  | runtime halt => [halt.message]

/-- The text of a failure, one line for each error. -/
def text (f : Failure) : String := "\n".intercalate f.messages

end Failure

/-- A machine between source texts. -/
structure Session where
  machine : Machine

/-- What is left when a source text has been run. -/
structure Outcome where
  session : Session
  failure : Option Failure
  /-- The next occurrence to give out. -/
  fresh : Occurrence

namespace Session

/-- A new session. -/
def start (sink : Sink) : Session := ⟨Machine.start sink⟩

/-- Runs a program on the machine of a session. -/
def runProgram (host : Hosting) (effort : Nat) (session : Session) (program : Program) :
    Session × Option Failure :=
  match Run.interpret host effort program.statements
      (session.machine.addBindings program.bindings) with
  | .ok _ m => (⟨m⟩, none)
  | .error halt m => (⟨m⟩, some (.runtime halt))

/-- Runs a source text. -/
def run (host : Hosting) (effort : Nat) (session : Session) (source : String)
    (fresh : Occurrence) : Outcome :=
  match compile source fresh with
  | (.error faults, fresh) => ⟨session, some (.static faults), fresh⟩
  | (.ok program, fresh) =>
    let (session, failure) := session.runProgram host effort program
    ⟨session, failure, fresh⟩

end Session

end Rill
