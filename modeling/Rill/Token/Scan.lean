import Rill.Token.Piece

/-!
# Scanning

`scan` reads a source text as tokens with their lines, in the order of the text, and closes with one
token for the end of the input. Text that is no token is reported where it stands, and scanning
goes on behind it; `tokens` gives the tokens alone, if nothing was reported.
-/

namespace Rill

namespace Piece

/-- How many lines a piece ends. -/
def lineFeeds (p : Piece) : Nat := p.text.count '\n'

/--
What a piece that starts on a line contributes to a scan. A line feed belongs to the line it ends,
and any other token to the line it ends on; a fault is reported where it starts.
-/
def item? (line : Nat) (p : Piece) : Option (Except Diagnostic Token) :=
  match p.role with
  | .token .newline => some (.ok ⟨.newline, String.ofList p.text, line⟩)
  | .token kind => some (.ok ⟨kind, String.ofList p.text, line + p.lineFeeds⟩)
  | .layout => none
  | .fault fault => some (.error ⟨line, .lexical fault⟩)

end Piece

/-- The tokens and faults of pieces from a line on, and the end of the input. -/
def itemsFrom (line : Nat) : List Piece → List (Except Diagnostic Token)
  | [] => [.ok ⟨.endOfInput, "", line⟩]
  | p :: rest => (p.item? line).toList ++ itemsFrom (line + p.lineFeeds) rest

/-- The tokens and lexical faults of a source text, in order. -/
def scan (source : String) : List (Except Diagnostic Token) := itemsFrom 1 (pieces source.toList)

/-- The tokens among the items of a scan. -/
def scannedTokens (items : List (Except Diagnostic Token)) : List Token :=
  items.filterMap Except.toOption

/-- The faults among the items of a scan. -/
def scannedFaults (items : List (Except Diagnostic Token)) : List Diagnostic :=
  items.filterMap fun
    | .ok _ => none
    | .error fault => some fault

/-- All tokens of a source text, or all its lexical faults if there are any. -/
def tokens (source : String) : Except (List Diagnostic) (List Token) :=
  let items := scan source
  match scannedFaults items with
  | [] => .ok (scannedTokens items)
  | faults => .error faults

end Rill
