import Rill.Command.Response
import Std.Time.DateTime.Timestamp

/-!
# The command line program

Reads the arguments, files and standard input, and writes what the commands answer. All that is
decided here is where bytes come from and go to.
-/

open Rill

/-- The fault that an operation on a file has met. -/
def accessFault : IO.Error → AccessFault
  | .noFileOrDirectory .. => .missing
  | .permissionDenied .. => .denied
  | .inappropriateType _ 20 _ => .notDirectory
  | .invalidArgument _ 36 _ => .nameTooLong
  | _ => .directory

/-- What there is under a file name. -/
def readContent (name : String) : IO FileContent := do
  match ← (IO.FS.readBinFile name).toBaseIO with
  | .ok content => return .bytes content
  | .error fault => return .inaccessible (accessFault fault)

/-- Starts the log if one is asked for, and tells why it cannot be started. -/
def startLog (log : Bool) : IO (Option AccessFault) := do
  if log then
    match ← (IO.FS.writeFile Invocation.logFile "").toBaseIO with
    | .ok _ => return none
    | .error fault => return some (accessFault fault)
  else return none

/-- The file that a command is asked to read. -/
def Rill.Command.file? : Command → Option String
  | .tokenize file _ | .parse file _ | .run file => file
  | .repl => none

/-- A host whose clock shows the seconds since 1970. -/
def currentHost : IO Host := do
  let now ← Std.Time.Timestamp.now
  let nanoseconds := now.toNanosecondsSinceUnixEpoch.val.toNat
  return .withClock (.ofRatio false nanoseconds (Nat.pow 10 9))

/-- Reads bytes up to and with a line feed, or to the end of the input. -/
partial def readLine (input : IO.FS.Stream) (line : List UInt8) : IO (List UInt8) := do
  match (← input.read 1).toList with
  | [] => return line.reverse
  | b :: _ => if b = 0x0A then return (b :: line).reverse else readLine input (b :: line)

/-- Runs lines at the prompt as they come in. -/
partial def serve (input output errors : IO.FS.Stream) (p : Prompt) : IO UInt32 := do
  output.putStr Prompt.question
  output.flush
  match ← readLine input [] with
  | [] =>
    output.putStr "\n"
    return 0
  | line =>
    match p.enter (← currentHost) Command.effort ⟨(Prompt.trimLine line).toArray⟩ with
    | .error text =>
      errors.putStr text
      return 1
    | .ok (next, report) =>
      output.write next.printed
      errors.putStr report
      serve input output errors next.forgetPrinted

/-- Gives a response. -/
def give (response : Response) (output errors : IO.FS.Stream) : IO UInt32 := do
  output.write response.output
  errors.putStr response.errors
  return response.status.toUInt32

/-- Performs a command that answers all at once. -/
def perform (command : Command) (output errors : IO.FS.Stream) : IO UInt32 := do
  let content ←
    match command.file? with
    | some name => readContent name
    | none => pure (.inaccessible .missing)
  give (command.respond (← currentHost) Command.effort (fun _ => content) .empty) output errors

/-- Runs the command line. -/
def main (arguments : List String) : IO UInt32 := do
  let output ← IO.getStdout
  let errors ← IO.getStderr
  match Invocation.ofArguments? arguments with
  | some invocation =>
    match ← startLog invocation.log, invocation.command with
    | some fault, _ => give (.noLog fault) output errors
    | none, .repl => serve (← IO.getStdin) output errors .start
    | none, command => perform command output errors
  | none =>
    errors.putStr "Usage: rill [--log] [tokenize|parse|run|repl] [FILE] [--json]\n"
    return 2
