import Rill.Number.Rounding

/-!
# Reading numbers

`ofDigits` is the value of a literal: whole digits and, after the point, fraction digits. `ofText?`
reads the wider notation of data: an optional sign, digits with an optional point, an optional power
of ten, and the names of the infinities and of NaN. Both round once, from the exact value.
-/

namespace Rill.Number

/-- The value of decimal digits before and after a point. -/
def ofDigits (whole fraction : List Char) : Number :=
  ofRatio false (Nat.ofDigitChars 10 (whole ++ fraction) 0) (Nat.pow 10 fraction.length)

/-- Positive infinity. -/
def infinity : Number := ofRank false infinityRank

/-- The NaN that computations give. -/
def nan : Number := ofRank false (infinityRank + binadeSize / 2)

/--
The value of `digits * 10 ^ exponent`. Powers of ten that leave no finite magnitude, or nothing
but zero, are not computed.
-/
def ofScaled (negative : Bool) (digits : Nat) (exponent : Int) : Number :=
  let place := exponent + (Nat.toDigits 10 digits).length
  if digits = 0 ∨ place < -400 then ofRank negative 0
  else if 400 < place then ofRank negative infinityRank
  else if 0 ≤ exponent then ofRatio negative (digits * Nat.pow 10 exponent.toNat) 1
  else ofRatio negative digits (Nat.pow 10 (-exponent).toNat)

/-- Splits a sign off the front; without one the text counts as positive. -/
def splitSign : List Char → Bool × List Char
  | '-' :: rest => (true, rest)
  | '+' :: rest => (false, rest)
  | text => (false, text)

/-- Reads the power of ten that may follow the digits: a letter e, a sign and digits. -/
def readPower? : List Char → Option Int
  | [] => some 0
  | mark :: rest =>
    let (negative, digits) := splitSign rest
    if mark.toLower = 'e' ∧ digits ≠ [] ∧ digits.all Char.isDigit then
      let magnitude : Int := Nat.ofDigitChars 10 digits 0
      some (if negative then -magnitude else magnitude)
    else none

/-- Reads digits with an optional point among, before or after them, and a power of ten. -/
def readMagnitude? (negative : Bool) (text : List Char) : Option Number :=
  let whole := text.takeWhile Char.isDigit
  let (fraction, rest) :=
    match text.dropWhile Char.isDigit with
    | '.' :: rest => (rest.takeWhile Char.isDigit, rest.dropWhile Char.isDigit)
    | rest => ([], rest)
  if whole ++ fraction = [] then none
  else (readPower? rest).map fun power =>
    ofScaled negative (Nat.ofDigitChars 10 (whole ++ fraction) 0) (power - fraction.length)

/-- Reads a number as data spells it, or nothing if the text is no number. -/
def ofText? (text : String) : Option Number :=
  let (negative, magnitude) := splitSign text.toList
  let name := String.ofList (magnitude.map Char.toLower)
  if name = "nan" then some nan
  else if name = "inf" ∨ name = "infinity" then some (ofRank negative infinityRank)
  else readMagnitude? negative magnitude

end Rill.Number
