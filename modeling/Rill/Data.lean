import Rill.Number.Notation

/-!
# Structured data

Tokens and trees can be handed to other programs as structured data: lists, records with named
fields in a fixed order, texts and numbers. `Data.render` writes it with one item to a line, each
level indented by two spaces.
-/

namespace Rill

/-- A piece of structured data. -/
inductive Data
  | null
  | natural (value : Nat)
  | number (value : Number)
  | text (value : String)
  | list (items : List Data)
  | record (fields : List (String × Data))

namespace Data

/-- A record with one field, which tells what the value is. -/
def tagged (tag : String) (value : Data) : Data := record [(tag, value)]

/-- A value that may be absent. -/
def ofOption : Option Data → Data
  | some value => value
  | none => null

/-- One character of a text: only quotes, backslashes and control characters are escaped. -/
def escapeChar (c : Char) : List Char :=
  if c = '"' ∨ c = '\\' then ['\\', c]
  else if c = '\n' then ['\\', 'n']
  else if c = '\r' then ['\\', 'r']
  else if c = '\t' then ['\\', 't']
  else if c = '\x08' then ['\\', 'b']
  else if c = '\x0c' then ['\\', 'f']
  else if c.toNat < 0x20 then
    ['\\', 'u', '0', '0', Nat.digitChar (c.toNat / 16), Nat.digitChar (c.toNat % 16)]
  else [c]

/-- A text between quotes. -/
def quoteText (s : String) : String :=
  String.ofList ('"' :: (s.toList.flatMap escapeChar ++ ['"']))

/-- A new line at a level of nesting. -/
def newLine (level : Nat) : String := String.ofList ('\n' :: List.replicate (2 * level) ' ')

mutual

/-- Writes data behind what has been written already. -/
def renderOnto (out : String) (level : Nat) : Data → String
  | null => out ++ "null"
  | natural value => out ++ toString value
  | number value => out ++ value.dataText
  | text value => out ++ quoteText value
  | list [] => out ++ "[]"
  | list (first :: rest) =>
    let out := renderOnto (out ++ "[" ++ newLine (level + 1)) (level + 1) first
    renderItems out (level + 1) rest ++ newLine level ++ "]"
  | record [] => out ++ "\x7b\x7d"
  | record ((name, value) :: rest) =>
    let out := out ++ "\x7b" ++ newLine (level + 1) ++ quoteText name ++ ": "
    let out := renderOnto out (level + 1) value
    renderFields out (level + 1) rest ++ newLine level ++ "\x7d"

/-- Writes the further items of a list. -/
def renderItems (out : String) (level : Nat) : List Data → String
  | [] => out
  | item :: rest =>
    renderItems (renderOnto (out ++ "," ++ newLine level) level item) level rest

/-- Writes the further fields of a record. -/
def renderFields (out : String) (level : Nat) : List (String × Data) → String
  | [] => out
  | (name, value) :: rest =>
    let out := out ++ "," ++ newLine level ++ quoteText name ++ ": "
    renderFields (renderOnto out level value) level rest

end

/-- The text of structured data. -/
def render (data : Data) : String := renderOnto "" 0 data

end Data

end Rill
