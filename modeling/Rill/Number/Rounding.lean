import Rill.Number.Basic

/-!
# Rounding an exact quotient to a number

`rankOfUnits p q` is the rank nearest to the quotient `p / q`, counted in least positive
magnitudes; of two equally near ranks it is the even one. Reading a decimal is a case of it
(`ofRatio`), so a literal denotes the number nearest to what is written.
-/

namespace Rill

/-- The quotient `p / q` rounded to the nearest natural, a half going to the even neighbour. -/
def roundHalfEven (p q : Nat) : Nat :=
  let whole := p / q
  let twice := 2 * (p % q)
  if q < twice ∨ (twice = q ∧ whole % 2 = 1) then whole + 1 else whole

namespace Number

/--
The rank nearest to `p / q` least magnitudes. Ranks have fifty-three significant bits, so the
quotient is rounded at the place that leaves it that many; a carry into the next power of two
runs into the exponent by itself. What lies beyond the finite ranks is infinite.
-/
def rankOfUnits (p q : Nat) : Nat :=
  let scale := Nat.log2 (p / q) - 52
  min infinityRank (scale * binadeSize + roundHalfEven p (q * Nat.pow 2 scale))

/-- The number nearest to `p / q` with the given sign. -/
def ofRatio (negative : Bool) (p q : Nat) : Number :=
  ofRank negative (rankOfUnits (p * unitsPerOne) q)

end Number

end Rill
