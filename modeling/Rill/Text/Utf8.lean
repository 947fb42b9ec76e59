/-!
# Texts in UTF-8

Reading a text from bytes either gives all its characters or says where the encoding breaks.
`units` cuts any byte sequence, left to right, into characters and faults; a fault covers the
longest start of a character at its place, or one byte if none starts there.
-/

namespace Rill.Utf8

/-- A place where bytes are no UTF-8. -/
structure Fault where
  /-- How many bytes precede the fault. -/
  index : Nat
  /-- How many bytes are at fault, or nothing if the text ends within a character. -/
  length : Option Nat
deriving DecidableEq

/-- A character of which some bytes have been read. -/
structure Partial where
  /-- The least byte that may follow. -/
  low : UInt8
  /-- The greatest byte that may follow. -/
  high : UInt8
  /-- How many bytes are missing, less one. -/
  more : Nat
  /-- How many bytes have been read. -/
  read : Nat
  /-- The bits of the code point so far. -/
  code : Nat

/--
What a byte at the start of a character gives: a character, the start of a longer one, or neither.
-/
inductive First
  | whole (c : Char)
  | start (p : Partial)
  | none

/-- Classifies the first byte of a character; surrogates and overlong forms have no start. -/
def first (b : UInt8) : First :=
  let longer (low high : UInt8) (more base : Nat) : First :=
    .start ⟨low, high, more, 1, b.toNat - base⟩
  if b < 0x80 then .whole (Char.ofNat b.toNat)
  else if b < 0xC2 then .none
  else if b < 0xE0 then longer 0x80 0xBF 0 0xC0
  else if b = 0xE0 then longer 0xA0 0xBF 1 0xE0
  else if b = 0xED then longer 0x80 0x9F 1 0xE0
  else if b < 0xF0 then longer 0x80 0xBF 1 0xE0
  else if b = 0xF0 then longer 0x90 0xBF 2 0xF0
  else if b < 0xF4 then longer 0x80 0xBF 2 0xF0
  else if b = 0xF4 then longer 0x80 0x8F 2 0xF0
  else .none

/--
The characters and faults of the bytes from `index` on; `found` holds the earlier ones, last first.
-/
def unitsFrom (found : List (Except Fault Char)) (index : Nat) :
    Option Partial → List UInt8 → List (Except Fault Char)
  | none, [] => found.reverse
  | some _, [] => (.error ⟨index, none⟩ :: found).reverse
  | none, b :: rest =>
    match first b with
    | .whole c => unitsFrom (.ok c :: found) (index + 1) none rest
    | .start p => unitsFrom found index (some p) rest
    | .none => unitsFrom (.error ⟨index, some 1⟩ :: found) (index + 1) none rest
  | some p, b :: rest =>
    if p.low ≤ b && b ≤ p.high then
      let code := p.code * 64 + (b.toNat - 0x80)
      match p.more with
      | 0 => unitsFrom (.ok (Char.ofNat code) :: found) (index + p.read + 1) none rest
      | more + 1 => unitsFrom found index (some ⟨0x80, 0xBF, more, p.read + 1, code⟩) rest
    else
      let found := .error ⟨index, some p.read⟩ :: found
      let index := index + p.read
      match first b with
      | .whole c => unitsFrom (.ok c :: found) (index + 1) none rest
      | .start q => unitsFrom found index (some q) rest
      | .none => unitsFrom (.error ⟨index, some 1⟩ :: found) (index + 1) none rest

/-- The characters and faults of a byte sequence, in order. -/
def units (bytes : ByteArray) : List (Except Fault Char) := unitsFrom [] 0 none bytes.toList

/-- The text that the bytes encode, or the first fault. -/
def decode (bytes : ByteArray) : Except Fault String :=
  match String.fromUTF8? bytes with
  | some text => .ok text
  | none => String.ofList <$> (units bytes).mapM id

/-- The text with the replacement character for each fault. -/
def decodeLossy (bytes : ByteArray) : String :=
  match String.fromUTF8? bytes with
  | some text => text
  | none => String.ofList ((units bytes).map fun
    | .ok c => c
    | .error _ => '\uFFFD')

end Rill.Utf8
