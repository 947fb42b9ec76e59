import Rill.Syntax.Statement

/-!
# Reading programs

`parse` reads a whole sequence of tokens as statements. A fault does not end the reading: the rest
of the line is given up, or what is left up to the next word that starts a statement, and reading
goes on from there, so every fault in the input is reported.
-/

namespace Rill

/-- The words that start a statement. -/
def Keyword.startsStatement : Keyword → Bool
  | .classWord | .fnWord | .letWord | .forWord | .ifWord | .printWord | .returnWord => true
  | _ => false

/-- Whether a token is a word that starts a statement. -/
def Token.startsStatement (t : Token) : Bool :=
  match t.kind with
  | .keyword k => k.startsStatement
  | _ => false

/-- Whether a token ends a statement. -/
def Token.endsStatement (t : Token) : Bool :=
  t.kind = .newline || t.kind = .mark .semicolon

/-- The tokens from the next place on where a statement may start, given the token before them. -/
def resume (previous : Token) : List Token → List Token
  | [] => []
  | t :: rest =>
    if previous.endsStatement || t.startsStatement then t :: rest else resume t rest

/-- Gives up the token at fault and what follows it, up to where a statement may start. -/
def recover : List Token → List Token
  | [] => []
  | t :: rest => resume t rest

/-- What has been read of a program. -/
structure Reading where
  statements : List Stmt
  faults : List Diagnostic
  /-- The least occurrence that has not been given out. -/
  fresh : Occurrence

namespace Reading

/-- Puts a statement in front of what follows it. -/
def addStatement (s : Stmt) (rest : Reading) : Reading :=
  { rest with statements := s :: rest.statements }

/-- Puts a fault in front of what follows it. -/
def addFault (fault : Diagnostic) (rest : Reading) : Reading :=
  { rest with faults := fault :: rest.faults }

end Reading

/--
Reads statements up to the end of the input. Each turn reads a token, so a bound above the number
of tokens left is never met.
-/
def readProgram : (bound : Nat) → Cursor → Reading
  | 0, c => ⟨[], [], c.fresh⟩
  | bound + 1, start =>
    let c := start.skipNewlines
    if c.upcoming.isEmpty then ⟨[], [], c.fresh⟩
    else
      match Parser.declaration (bound + 1) c with
      | .ok s next => (readProgram bound next).addStatement s
      | .error fault stopped =>
        (readProgram bound { stopped with upcoming := recover stopped.upcoming }).addFault fault

/-- The cursor at the front of tokens that run up to the first end of the input. -/
def Cursor.start (tokens : List Token) (fresh : Occurrence) : Cursor where
  upcoming := tokens.takeWhile (·.kind ≠ .endOfInput)
  endLine := ((tokens.find? (·.kind = .endOfInput)).map Token.line).getD 1
  fresh := fresh

/-- Reads all tokens, numbering the occurrences from a given one on. -/
def readTokens (tokens : List Token) (fresh : Occurrence) : Reading :=
  let c := Cursor.start tokens fresh
  readProgram (c.upcoming.length + 1) c

/-- The statements of a program, or all its faults, and the next occurrence to give out. -/
def parse (tokens : List Token) (fresh : Occurrence) :
    Except (List Diagnostic) (List Stmt) × Occurrence :=
  let reading := readTokens tokens fresh
  match reading.faults with
  | [] => (.ok reading.statements, reading.fresh)
  | faults => (.error faults, reading.fresh)

end Rill
