import Rill.Number.Shortest

/-!
# How numbers are written

The language shows a number in four places, and each has a form of its own: the text of a value,
the literal in a token listing, the literal in a printed tree, and the number in structured data.
All four write a whole number out in full wherever they treat it apart, and otherwise the shortest
decimal that reads back. Only structured data uses powers of ten.
-/

namespace Rill

namespace Decimal

/-- The digits with a point where the exponent puts it, filled up with zeros and no power of ten. -/
def positional (d : Decimal) : List Char :=
  let digits := Nat.toDigits 10 d.digits
  if 0 ≤ d.exponent then digits ++ List.replicate d.exponent.toNat '0'
  else
    let places := (-d.exponent).toNat
    let whole := digits.length - places
    if 0 < whole then digits.take whole ++ '.' :: digits.drop whole
    else '0' :: '.' :: (List.replicate (places - digits.length) '0' ++ digits)

/-- One digit, the others behind a point, and a signed power of ten. -/
def scientific (d : Decimal) : List Char :=
  let digits := Nat.toDigits 10 d.digits
  let power := d.exponent + digits.length - 1
  let tail := digits.drop 1
  digits.take 1 ++ (if tail.isEmpty then [] else '.' :: tail) ++
    'e' :: (if power < 0 then '-' else '+') :: Nat.toDigits 10 power.natAbs

end Decimal

namespace Number

/-- Puts the sign of a number in front of the text of its magnitude. -/
def signed (n : Number) (magnitude : List Char) : String :=
  String.ofList (if n.isNegative then '-' :: magnitude else magnitude)

/-- All digits of the whole part, with the sign. -/
def wholeText (n : Number) : String := n.signed (Nat.toDigits 10 n.wholePart)

/-- The shortest decimal of a finite magnitude, zero included. -/
def shortestDecimal (tie : Tie) (n : Number) : Decimal :=
  if n.rank = 0 then ⟨0, 0⟩ else shortest tie n.rank

/--
The fewest digits that read back, never with a power of ten, and names for what is not finite.
-/
def plainText (n : Number) : String :=
  if n.isFinite then n.signed (n.shortestDecimal .up).positional
  else if n.isInfinite then n.signed "inf".toList
  else "NaN"

/-- The text of a value: a whole number with all its digits, any other plainly. -/
def valueText (n : Number) : String :=
  if n.isIntegral then n.wholeText else n.plainText

/--
The literal in a printed tree: a whole number with all its digits and a zero behind the point.
-/
def treeText (n : Number) : String :=
  if n.isIntegral then n.wholeText ++ ".0" else n.plainText

/-- The whole part as an integer, of which there is only one zero. -/
def toInt (n : Number) : Int := if n.isNegative then -n.wholePart else n.wholePart

/-- Apart from zeros, an integer is written as the number that it is. -/
theorem repr_toInt (n : Number) :
    n.toInt.repr = if n.wholePart = 0 then "0" else n.wholeText := by
  rw [toInt, wholeText, signed]
  cases n.wholePart with
  | zero => split <;> rfl
  | succ whole =>
      rw [if_neg (Nat.succ_ne_zero whole)]
      split
      · rw [String.ofList_cons]
        rfl
      · rfl

/-- Without a sign in front, the integer is written as the whole part is. -/
theorem repr_toInt_eq {n : Number} (positive : n.isNegative = false) :
    n.toInt.repr = n.wholeText := by
  rw [toInt, wholeText, signed, positive]
  rfl

/--
The literal in a token listing: below `2 ^ 63` a whole number as an integer and a zero behind the
point, and any other plainly.
-/
def tokenText (n : Number) : String :=
  if n.isIntegral && n.wholePart < Nat.pow 2 63 then n.toInt.repr ++ ".0" else n.plainText

/-- Where structured data changes from positional notation to powers of ten. -/
structure DataNotation where
  /-- The least place of the leading digit that is written positionally. -/
  leastPlace : Int
  /-- The greatest place of the leading digit that is written positionally. -/
  greatestPlace : Int
  tie : Tie

/-- Data is positional from `10 ^ (-5)` to below `10 ^ 16`, and a tie goes to the even digit. -/
def dataNotation : DataNotation := ⟨-4, 16, .even⟩

/-- The number in structured data, which has no spelling for what is not finite. -/
def dataText (n : Number) : String :=
  if !n.isFinite then "null"
  else
    let decimal := n.shortestDecimal dataNotation.tie
    let place := decimal.exponent + decimalLength decimal.digits
    if dataNotation.leastPlace ≤ place ∧ place ≤ dataNotation.greatestPlace then
      n.signed (decimal.positional ++ if 0 ≤ decimal.exponent then ['.', '0'] else [])
    else n.signed decimal.scientific

end Number

end Rill
