/-!
# Command lines

The command line names what to do, the file to do it to, and how to show the result.
-/

namespace Rill

/-- What the program is asked to do. Each file may be left out. -/
inductive Command
  | tokenize (file : Option String) (json : Bool)
  | parse (file : Option String) (json : Bool)
  | run (file : Option String)
  | repl
deriving DecidableEq

/-- A command line that has been understood. -/
structure Invocation where
  command : Command
  /-- Whether a log is kept. -/
  log : Bool
deriving DecidableEq

namespace Invocation

/-- The file that a log is kept in. -/
def logFile : String := "rill.log"

/-- What stands behind the name of a command. -/
structure Rest where
  file : Option String
  json : Bool
  log : Bool

/-- Reads what stands behind the name of a command; `--` makes everything behind it a file. -/
def readRest? (plain : Bool) (rest : Rest) : List String → Option Rest
  | [] => some rest
  | argument :: later =>
    if !plain && argument = "--" then readRest? true rest later
    else if !plain && argument = "--json" then
      if rest.json then none else readRest? plain { rest with json := true } later
    else if !plain && argument = "--log" then
      if rest.log then none else readRest? plain { rest with log := true } later
    else if !plain && argument.startsWith "-" && argument ≠ "-" then none
    else if rest.file.isSome then none
    else readRest? plain { rest with file := some argument } later

/-- The command with a name, if the rest of the line suits it. -/
def command? (name : String) (rest : Rest) : Option Command :=
  match name, rest.file, rest.json with
  | "tokenize", file, json => some (.tokenize file json)
  | "parse", file, json => some (.parse file json)
  | "run", file, false => some (.run file)
  | "repl", none, false => some .repl
  | _, _, _ => none

/--
Reads a command line. Without a command the prompt is started; behind `--` there can be none. The
log may be asked for once in front of the command and once behind it.
-/
def read? (log : Bool) : List String → Option Invocation
  | [] => some ⟨.repl, log⟩
  | argument :: later =>
    if argument = "--log" then if log then none else read? true later
    else if argument = "--" then if later.isEmpty then some ⟨.repl, log⟩ else none
    else do
      let rest ← readRest? false ⟨none, false, false⟩ later
      let command ← command? argument rest
      return ⟨command, log || rest.log⟩

/-- The command line that the arguments make up, if they are one. -/
def ofArguments? (arguments : List String) : Option Invocation := read? false arguments

end Invocation

end Rill
