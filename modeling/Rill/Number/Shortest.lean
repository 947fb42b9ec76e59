import Rill.Number.Rounding

/-!
# The shortest decimal of a number

`shortest` finds, for a positive finite magnitude, the decimal with the fewest digits that rounds
back to it, and among those the one nearest to its exact value. All arithmetic is exact.
-/

namespace Rill

/-- The decimal `digits * 10 ^ exponent`. -/
structure Decimal where
  digits : Nat
  exponent : Int
deriving DecidableEq

namespace Decimal

/-- Moves the zeros at the end of the digits into the exponent; fuel bounds how many. -/
def trim : Nat → Decimal → Decimal
  | 0, d => d
  | fuel + 1, d =>
    if d.digits ≠ 0 ∧ d.digits % 10 = 0 then trim fuel ⟨d.digits / 10, d.exponent + 1⟩ else d

/-- The rank nearest to a decimal. -/
def rank (d : Decimal) : Nat :=
  if 0 ≤ d.exponent then
    Number.rankOfUnits (d.digits * Nat.pow 10 d.exponent.toNat * Number.unitsPerOne) 1
  else Number.rankOfUnits (d.digits * Number.unitsPerOne) (Nat.pow 10 (-d.exponent).toNat)

end Decimal

/-- Which of two decimals at equal distance from a value is written. -/
inductive Tie
  | up
  | even
deriving DecidableEq

namespace Number

/-- How many decimal digits a natural has. -/
def decimalLength (n : Nat) : Nat := (Nat.toDigits 10 n).length

/--
The place `k` of the leading digit of a positive magnitude: the value lies in
`[10 ^ (k - 1), 10 ^ k)`.
-/
def leadingPlace (units : Nat) : Int :=
  if unitsPerOne ≤ units then decimalLength (units / unitsPerOne)
  else 1 - decimalLength ((unitsPerOne - 1) / units)

/-- The exact value of a magnitude: a power of one half is a power of ten times one of five. -/
def exactDecimal (units : Nat) : Decimal := ⟨units * Nat.pow 5 1074, -1074⟩

/--
The nearer of the two multiples of `10 ^ place` around a magnitude that round back to its rank, if
one does.
-/
def onGrid (tie : Tie) (rank : Nat) (place : Int) : Option Decimal :=
  let numerator := if 0 ≤ place then units rank else units rank * Nat.pow 10 (-place).toNat
  let step := if 0 ≤ place then unitsPerOne * Nat.pow 10 place.toNat else unitsPerOne
  let below : Decimal := ⟨numerator / step, place⟩
  let above : Decimal := ⟨numerator / step + 1, place⟩
  let twice := 2 * (numerator % step)
  let preferAbove := step < twice ∨
    (twice = step ∧ (tie = .up ∨ numerator / step % 2 = 1))
  let (near, far) := if preferAbove then (above, below) else (below, above)
  if near.rank = rank then some near else if far.rank = rank then some far else none

/-- Tries ever finer grids, and writes the value out exactly if none has answered. -/
def search (tie : Tie) (rank : Nat) (leading : Int) : (finer : Nat) → (length : Nat) → Decimal
  | 0, _ => exactDecimal (units rank)
  | finer + 1, length =>
    (onGrid tie rank (leading - length)).getD (search tie rank leading finer (length + 1))

/-- The decimal with the fewest digits that rounds back to a positive finite rank. -/
def shortest (tie : Tie) (rank : Nat) : Decimal :=
  (search tie rank (leadingPlace (units rank)) 17 1).trim 1100

end Number

end Rill
