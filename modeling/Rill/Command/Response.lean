import Rill.Command.Folder
import Rill.Command.Line
import Rill.Session
import Rill.Syntax.Data
import Rill.Syntax.Outline
import Rill.Text.Quoted
import Rill.Text.Utf8
import Rill.Token.Data

/-!
# Responses

What a command answers, as a function of the bytes it is given: the exit status, and all that goes
to the two outputs.
-/

namespace Rill

/-- What a command leaves behind. -/
structure Response where
  status : Nat
  output : ByteArray
  errors : String

namespace Response

/-- A response with a status and the texts of both outputs. -/
def ofTexts (status : Nat) (output errors : String) : Response := ⟨status, output.toUTF8, errors⟩

/-- The response to a file that a command needs and is not given. -/
def noFile : Response := ofTexts 0 "No input filepath was provided. Exiting...\n" ""

/-- The text of a failure to read input, with its cause. -/
def failureText (context cause : String) : String :=
  "Error: " ++ context ++ "\n\nCaused by:\n    " ++ cause ++ "\n"

/-- The response when the log cannot be started. -/
def noLog (fault : AccessFault) : Response :=
  ofTexts 1 "" (failureText ("Failed to create " ++ Invocation.logFile) fault.message)

/-- Texts as lines. -/
def lines (texts : List String) : String := String.join (texts.map (· ++ "\n"))

end Response

/-- The words for a fault in the encoding of a file. -/
def Utf8.Fault.message (f : Utf8.Fault) : String :=
  match f.length with
  | some length =>
    "invalid utf-8 sequence of " ++ toString length ++ " bytes from index " ++ toString f.index
  | none => "incomplete utf-8 byte sequence from index " ++ toString f.index

/-- The text of a file, or why there is none. -/
def FileContent.decode (name : String) : FileContent → Except String String
  | .inaccessible fault =>
    let step := if fault.isOpened then "Failed to read file " else "Failed to open file "
    .error (Response.failureText (step ++ quote name) fault.message)
  | .bytes content =>
    match Utf8.decode content with
    | .ok text => .ok text
    | .error fault =>
      .error (Response.failureText ("File " ++ quote name ++ " is not valid UTF-8") fault.message)

/-! ## The prompt -/

/-- A session that is given one line after the other. -/
structure Prompt where
  session : Session
  /-- The next occurrence to give out. -/
  fresh : Occurrence

namespace Prompt

/-- What is asked before every line. -/
def question : String := "-> "

/-- The prompt before its first line. -/
def start : Prompt := ⟨.start .unlimited, 0⟩

/-- What the session has printed. -/
def printed (p : Prompt) : ByteArray := p.session.machine.sink.taken

/-- The prompt without what has been printed so far. -/
def forgetPrinted (p : Prompt) : Prompt :=
  let machine := p.session.machine
  { p with session := ⟨{ machine with sink := { machine.sink with taken := .empty } }⟩ }

/-- Writes a text among what the session prints. -/
def say (p : Prompt) (text : String) : Prompt :=
  let machine := p.session.machine
  { p with session := ⟨{ machine with sink := (machine.sink.write text).1 }⟩ }

/-- Runs a line, and tells what is reported. A line that is no text ends the prompt instead. -/
def enter (host : Hosting) (effort : Nat) (p : Prompt) (line : ByteArray) :
    Except String (Prompt × String) :=
  match Utf8.decode line with
  | .error _ =>
    .error (Response.failureText "Failed to read from stdin" "stream did not contain valid UTF-8")
  | .ok source =>
    let outcome := p.session.run host effort source p.fresh
    let report :=
      match outcome.failure with
      | none => ""
      | some failure => failure.text ++ "\n"
    .ok (⟨outcome.session, outcome.fresh⟩, report)

/-- Runs lines one after the other, and asks before each and at the end. -/
def enterAll (host : Hosting) (effort : Nat) (p : Prompt) (reports : String) :
    List ByteArray → Response
  | [] => ⟨0, ((p.say question).say "\n").printed, reports⟩
  | line :: rest =>
    let asked := p.say question
    match asked.enter host effort line with
    | .error text => ⟨1, asked.printed, reports ++ text⟩
    | .ok (next, report) => enterAll host effort next (reports ++ report) rest

/-- A line without the line feed that ends it, and without a return before that. -/
def trimLine (line : List UInt8) : List UInt8 :=
  match line.reverse with
  | 0x0A :: 0x0D :: before => before.reverse
  | 0x0A :: before => before.reverse
  | _ => line

/-- The lines of some bytes, each with the line feed that ends it. -/
def splitLines : List UInt8 → List (List UInt8)
  | [] => []
  | b :: rest =>
    if b = 0x0A then [b] :: splitLines rest
    else
      match splitLines rest with
      | [] => [[b]]
      | line :: lines => (b :: line) :: lines

/-- Runs the lines of some bytes. -/
def enterBytes (host : Hosting) (effort : Nat) (input : ByteArray) : Response :=
  enterAll host effort start ""
    ((splitLines input.toList).map fun line => ⟨(trimLine line).toArray⟩)

end Prompt

/-! ## Commands -/

namespace Command

/-- How much effort the command line spends: more than any run that comes to an end. -/
def effort : Nat := Nat.pow 2 62

/-- Lists the tokens of a source text, and reports what is no token. -/
def tokenizeText (json : Bool) (source : String) : Response :=
  let items := scan source
  let found := scannedTokens items
  let faults := scannedFaults items
  let output :=
    if json then (Data.list (found.map Token.toData)).render ++ "\n"
    else Response.lines (found.map Token.listing)
  .ofTexts (if faults.isEmpty then 0 else 65) output
    (Response.lines (faults.map Diagnostic.message))

/-- Shows the tree of a source text, or reports why there is none. -/
def parseText (json : Bool) (source : String) : Response :=
  match (parseSource source 0).1 with
  | .error faults => .ofTexts 65 "" (Response.lines (faults.map Diagnostic.message))
  | .ok program =>
    let output :=
      if json then (Data.list (Stmt.toDataAll program)).render else outlineProgram program
    .ofTexts 0 (output ++ "\n") ""

/-- Runs a source text. -/
def runText (host : Hosting) (effort : Nat) (source : String) : Response :=
  let outcome := (Session.start .unlimited).run host effort source 0
  let output := outcome.session.machine.sink.taken
  match outcome.failure with
  | none => ⟨0, output, ""⟩
  | some failure => ⟨failure.exitCode, output, failure.text ++ "\n"⟩

/-- Answers a command on a file, given what is done with its text. -/
def respondTo (files : String → FileContent) (file : Option String)
    (answer : String → Response) : Response :=
  match file with
  | none => .noFile
  | some name =>
    match (files name).decode name with
    | .error text => .ofTexts 1 "" text
    | .ok source => answer source

/-- Answers a command, given the files and the input there are. -/
def respond (host : Hosting) (effort : Nat) (files : String → FileContent) (input : ByteArray) :
    Command → Response
  | .tokenize file json => respondTo files file (tokenizeText json)
  | .parse file json => respondTo files file (parseText json)
  | .run file => respondTo files file (runText host effort)
  | .repl => Prompt.enterBytes host effort input

end Command

/-- Answers a command line in a folder, given the input there is. A log is started first of all. -/
def Invocation.respond (host : Hosting) (folder : Folder) (input : ByteArray) (i : Invocation)
    (effort : Nat := Command.effort) : Response :=
  match i.log, folder.content Invocation.logFile with
  | true, .inaccessible .directory => .noLog .directory
  | _, _ => i.command.respond host effort folder.content input

/-- Whether the log is there when a command line has been answered in a folder. -/
def Invocation.leavesLog (folder : Folder) (i : Invocation) : Bool :=
  i.log || folder.holds Invocation.logFile

end Rill
