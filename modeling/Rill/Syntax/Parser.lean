import Rill.Diagnostic
import Rill.Syntax.Tree
import Rill.Token.Basic

/-!
# Parsers

A parser reads from a cursor: the tokens that are left, and the next unused occurrence. It answers
with what it has read, or with a diagnostic, and in both cases with the cursor where it stopped, so
that reading can go on behind a fault.
-/

namespace Rill

/-- A place in a sequence of tokens. -/
structure Cursor where
  /-- The tokens that have not been read, without the end of the input. -/
  upcoming : List Token
  /-- The line of the end of the input. -/
  endLine : Nat
  /-- The least occurrence that has not been given out. -/
  fresh : Occurrence

namespace Cursor

/-- The line of the next token, or of the end of the input. -/
def line (c : Cursor) : Nat :=
  match c.upcoming with
  | [] => c.endLine
  | t :: _ => t.line

/-- What stands at the cursor, as a diagnostic names it. -/
def found (c : Cursor) : Found :=
  match c.upcoming with
  | [] => .inputEnd
  | t :: _ => if t.kind = .newline then .lineEnd else .token t.lexeme

/-- The cursor behind all line breaks that stand at it. -/
def skipNewlines (c : Cursor) : Cursor :=
  { c with upcoming := c.upcoming.dropWhile (·.kind = .newline) }

end Cursor

/-- A reader of tokens that stops with a diagnostic where the grammar is broken. -/
abbrev Parser := EStateM Diagnostic Cursor

namespace Parser

/-- Reports a fault of grammar on a line. -/
def refuse {α : Type} (line : Nat) (fault : SyntaxFault) : Parser α :=
  throw ⟨line, .grammar fault⟩

/-- Reports that something else is wanted where the parser stands. -/
def want {α : Type} (wanted : Wanted) : Parser α := do
  let c ← get
  refuse c.line (.expected wanted c.found)

/-- Reports that a list would grow too long where the parser stands. -/
def overfull {α : Type} (listed : Listed) : Parser α := do
  let c ← get
  refuse c.line (.tooMany listed c.found)

/-- The next token, if the input does not end here. -/
def peek? : Parser (Option Token) := do
  return (← get).upcoming.head?

/-- Moves past the next token. -/
def skip : Parser Unit :=
  modify fun c => { c with upcoming := c.upcoming.tail }

/-- Whether the next token is of a kind. -/
def sees (kind : Kind) : Parser Bool := do
  match ← peek? with
  | some t => return decide (t.kind = kind)
  | none => return false

/-- Reads the next token if it is of a kind. -/
def accept? (kind : Kind) : Parser (Option Token) := do
  match ← peek? with
  | some t => if t.kind = kind then do skip; return some t else return none
  | none => return none

/-- Reads the next token if it is of a kind, and tells whether it was. -/
def accept (kind : Kind) : Parser Bool := do
  return (← accept? kind).isSome

/-- Reads a token of a kind. -/
def expect (kind : Kind) (wanted : Wanted) : Parser Token := do
  match ← accept? kind with
  | some t => return t
  | none => want wanted

/-- Reads a name. -/
def identifier (wanted : Wanted) : Parser Ident := do
  let t ← expect .identifier wanted
  return ⟨t.lexeme, t.line⟩

/-- Moves past line breaks. -/
def skipNewlines : Parser Unit := modify Cursor.skipNewlines

/-- Gives out an occurrence that has not been given out before. -/
def freshOccurrence : Parser Occurrence :=
  modifyGet fun c => (c.fresh, { c with fresh := c.fresh + 1 })

/-- Whether a body ends here: at its closing brace or at the end of the input. -/
def atBodyEnd : Parser Bool := do
  match ← peek? with
  | some t => return decide (t.kind = .mark .rightBrace)
  | none => return true

/-- Whether a statement may end here. -/
def atStatementEnd : Parser Bool := do
  match ← peek? with
  | some t =>
    return decide (t.kind = .newline ∨ t.kind = .mark .semicolon ∨ t.kind = .mark .rightBrace)
  | none => return true

/--
Ends a statement: at a line break or semicolon, which is read, or before a closing brace or the end
of the input, which are left in place.
-/
def endStatement (what : LineEnd) : Parser Unit := do
  if ← accept .newline then return
  if ← accept (.mark .semicolon) then return
  if ← atBodyEnd then return
  want (.lineEnd what)

/--
Reads the items of a body up to where it ends, with line breaks before, between and after them.
Every item reads a token, so a bound above the number of tokens left is never met.
-/
def bodyItems {α : Type} (item : Parser α) : (bound : Nat) → Parser (List α)
  | 0 => return []
  | bound + 1 => do
    skipNewlines
    if ← atBodyEnd then return []
    let first ← item
    let rest ← bodyItems item bound
    return first :: rest

/--
Reads one or more items with a separator between them. The room is how many items may follow, and
an item past it is refused.
-/
def separated {α : Type} (listed : Listed) (item : Parser α) (separator : Parser Bool) :
    (room : Nat) → Parser (List α)
  | 0 => overfull listed
  | room + 1 => do
    let first ← item
    if ← separator then
      let rest ← separated listed item separator room
      return first :: rest
    return [first]

/-- How many parameters or arguments one pair of parentheses may hold. -/
def maximumListed : Nat := 255

end Parser

end Rill
