import Rill.Proofs.Scanner.Bytes
import Rill.Token.Piece

/-!
# Scanning by index

Texts can be scanned without cutting them up: the text stays whole, and indices of bytes tell where
the lexeme that is being read starts and how far it reaches. Nothing keeps an index within the text
or between two characters by itself. Where a byte outside of the text is read, where a slice ends
within a character and where a loop comes to its bound, the scanning stops for that reason. `next`
reads on to the next token, fault or end of the input, and answers nothing behind that.
-/

namespace Rill.Scanner

/-- What a scanner looks at. -/
structure Window where
  /-- The index of the first byte of the lexeme. -/
  start : Nat
  /-- The index behind the last byte that was read. -/
  current : Nat
  line : Nat
  /-- What kind of token was recognized. -/
  pending : Option Kind

/-- The window in front of a text. -/
def Window.initial : Window := ⟨0, 0, 1, none⟩

/-- Why scanning stops. -/
inductive Stop
  /-- An index outside of the text was looked at. -/
  | outside
  /-- A slice ends within a character, or in front of where it starts. -/
  | split
  /-- A loop came to its bound. -/
  | exhausted

/-- A scanner of a text. -/
abbrev Reader := EStateM Stop Window

/-- What is scanned: a token or a fault. -/
abbrev Item := Except Diagnostic Token

/-- Gives out the kind of token that was recognized. -/
def recognize (kind : Kind) : Reader (Except Diagnostic Unit) := do
  modify fun w => { w with pending := some kind }
  return .ok ()

/-- The index in front of another one. -/
def before : Nat → Reader Nat
  | 0 => throw .outside
  | index + 1 => return index

variable (source : String)

/-! ## Bytes and slices -/

/-- How many bytes a text has. -/
def size : Nat := (bytesOf source).length

/-- The byte with an index. -/
def byteAt (index : Nat) : Reader UInt8 :=
  match (bytesOf source)[index]? with
  | some b => return b
  | none => throw .outside

/-- Whether the text ends here. -/
def isAtEnd : Reader Bool := do
  return decide (size source ≤ (← get).current)

/-- Reads a byte. -/
def advance : Reader UInt8 := do
  let b ← byteAt source (← get).current
  modify fun w => { w with current := w.current + 1 }
  return b

/-- The next byte, or zero behind the text. -/
def peek : Reader UInt8 := do
  if ← isAtEnd source then return 0
  byteAt source (← get).current

/-- The byte behind the next one, or zero behind the text. -/
def peekNext : Reader UInt8 := do
  let index := (← get).current + 1
  if size source ≤ index then return 0
  byteAt source index

/-- Reads a character of ASCII if it is the next byte, and tells whether it was. -/
def accept (c : Char) : Reader Bool := do
  if ← isAtEnd source then return false
  if Char.ofUInt8 (← peek source) = c then
    let _ ← advance source
    return true
  return false

/-- The text from a byte on and up to another one. -/
def slice (first last : Nat) : Reader String :=
  if first ≤ last ∧ String.Pos.Raw.isValid source ⟨first⟩ ∧
      String.Pos.Raw.isValid source ⟨last⟩ then
    return String.Pos.Raw.extract source ⟨first⟩ ⟨last⟩
  else throw .split

/-- The bytes from an index on and up to another one. -/
def byteSlice (first last : Nat) : Reader (List UInt8) :=
  if first ≤ last ∧ last ≤ size source then return ((bytesOf source).take last).drop first
  else throw .outside

/-! ## Runs of bytes -/

/-- Reads bytes as long as they are of a class. -/
def skipWhile (p : Char → Bool) : (bound : Nat) → Reader Unit
  | 0 => throw .exhausted
  | bound + 1 => do
    if p (Char.ofUInt8 (← peek source)) then
      let _ ← advance source
      skipWhile p bound

/-- Reads what stands between quotes, and counts lines. -/
def skipBody : (bound : Nat) → Reader Unit
  | 0 => throw .exhausted
  | bound + 1 => do
    if ← isAtEnd source then return
    if Char.ofUInt8 (← peek source) = '"' then return
    if Char.ofUInt8 (← advance source) = '\n' then
      modify fun w => { w with line := w.line + 1 }
    skipBody bound

/-! ## Tokens -/

/-- Reads a mark behind its first character, which an equals sign may extend. -/
def scanExtensible (alone extended : Mark) : Reader (Except Diagnostic Unit) := do
  if ← accept source '=' then recognize (.mark extended)
  else recognize (.mark alone)

/-- Reads a comment behind its slashes, up to the end of its line. -/
def scanComment : Reader (Except Diagnostic Unit) := do
  let here := (← get).current
  let left ← byteSlice source here (size source)
  match left.findIdx? fun b => Char.ofUInt8 b = '\n' with
  | some length => modify fun w => { w with current := here + length }
  | none => modify fun w => { w with current := size source }
  return .ok ()

/-- Reads a comment behind its first slash, or a slash. -/
def scanSlash : Reader (Except Diagnostic Unit) := do
  if ← accept source '/' then scanComment source
  else recognize (.mark .slash)

/-- Reads the closing quote of a string that started on a line. -/
def closeString (opening : Nat) : Reader (Except Diagnostic Unit) := do
  if ← isAtEnd source then return .error ⟨opening, .lexical .unterminatedString⟩
  let _ ← advance source
  let w ← get
  recognize (.string (← slice source (w.start + 1) (← before w.current)))

/-- Reads a string behind its opening quote. -/
def scanString (limit : Nat) : Reader (Except Diagnostic Unit) := do
  let opening := (← get).line
  skipBody source limit
  closeString source opening

/-- The value of a literal. -/
def valueOf (literal : List Char) : Number :=
  .ofDigits (literal.takeWhile Char.isDigit) (literal.dropWhile Char.isDigit).tail

/-- Reads a point and the digits behind it, if there are any. -/
def skipFraction (limit : Nat) : Reader Unit := do
  if Char.ofUInt8 (← peek source) = '.' then
    if (Char.ofUInt8 (← peekNext source)).isDigit then
      let _ ← advance source
      skipWhile source Char.isDigit limit

/-- Reads a number behind its first digit. -/
def scanNumber (limit : Nat) : Reader (Except Diagnostic Unit) := do
  skipWhile source Char.isDigit limit
  skipFraction source limit
  let w ← get
  recognize (.number (valueOf (← slice source w.start w.current).toList))

/-- What a word is, given by its bytes. -/
def wordKind (word : List UInt8) : Kind :=
  match Keyword.all.find? fun keyword => bytesOf keyword.text = word with
  | some keyword => .keyword keyword
  | none => .identifier

/-- Reads an identifier or keyword behind its first byte. -/
def scanWord (limit : Nat) : Reader (Except Diagnostic Unit) := do
  skipWhile source Piece.continuesWord limit
  let w ← get
  recognize (wordKind (← byteSlice source w.start w.current))

/-- Reports the character at which the lexeme starts, and goes on behind it. -/
def scanUnexpected : Reader (Except Diagnostic Unit) := do
  let w ← get
  let c := (← slice source w.start (size source)).toList.headD '\uFFFD'
  set { w with current := w.start + c.utf8Size }
  return .error ⟨w.line, .lexical (.unexpected c)⟩

/-- Goes on behind the first byte of a token, a blank, a comment or a fault. -/
def scanBehind (limit : Nat) (first : Char) : Reader (Except Diagnostic Unit) :=
  match Piece.loneMark? first with
  | some mark => recognize (.mark mark)
  | none =>
    match Piece.extensibleMark? first with
    | some (alone, extended) => scanExtensible source alone extended
    | none =>
      if first = '\n' then recognize .newline
      else if first = '/' then scanSlash source
      else if first = '"' then scanString source limit
      else if Piece.isBlank first then return .ok ()
      else if first.isDigit then scanNumber source limit
      else if Piece.startsWord first then scanWord source limit
      else scanUnexpected source

/-- Reads a token, a blank, a comment or a fault. Only a token leaves a kind pending. -/
def scanToken (limit : Nat) : Reader (Except Diagnostic Unit) := do
  scanBehind source limit (Char.ofUInt8 (← advance source))

/-- The token that is pending, if any. A line feed belongs to the line it ends. -/
def takeToken? : Reader (Option Token) := do
  let w ← get
  modify fun w => { w with pending := none }
  match w.pending with
  | none => return none
  | some kind =>
    let lexeme ← slice source w.start w.current
    if kind = .newline then modify fun w => { w with line := w.line + 1 }
    return some ⟨kind, lexeme, w.line⟩

/-- Reads on to the next token or fault, or to the end of the input, behind which there is none. -/
def next (limit : Nat) : (bound : Nat) → Reader (Option Item)
  | 0 => throw .exhausted
  | bound + 1 => do
    let w ← get
    if size source < w.current then return none
    if w.current = size source then
      set { w with current := w.current + 1 }
      return some (.ok ⟨.endOfInput, "", w.line⟩)
    set { w with start := w.current, pending := none }
    match ← scanToken source limit with
    | .error fault => return some (.error fault)
    | .ok _ =>
      match ← takeToken? source with
      | some t => return some (.ok t)
      | none => next limit bound

/-- What the scanner answers if it is asked a number of times. -/
def answers (limit : Nat) : (count : Nat) → Reader (List (Option Item))
  | 0 => return []
  | count + 1 => do
    let first ← next source limit limit
    let rest ← answers limit count
    return first :: rest

end Rill.Scanner
