/-!
# Numbers

Every number of the language is a binary64 value. It is kept as its bit pattern, so that equality
of numbers in trees and tokens is decidable, and computed with through `Float`.

The magnitudes of the finite values form the initial segment `0 ≤ rank < infinityRank` of the
naturals: `units` gives the exact value of each rank as a multiple of the least positive magnitude
`2 ^ (-1074)`, and grows with the rank.
-/

namespace Rill

/-- A number, given by the bit pattern of its binary64 representation. -/
structure Number where
  /-- Sign in bit 63, then eleven bits of exponent and fifty-two of fraction. -/
  bits : UInt64
deriving DecidableEq, Inhabited

namespace Number

/-- The number that a machine float stands for. -/
def ofFloat (x : Float) : Number := ⟨x.toBits⟩

/-- The machine float with this bit pattern. -/
def toFloat (n : Number) : Float := Float.ofBits n.bits

instance : Add Number := ⟨fun a b => ofFloat (a.toFloat + b.toFloat)⟩
instance : Sub Number := ⟨fun a b => ofFloat (a.toFloat - b.toFloat)⟩
instance : Mul Number := ⟨fun a b => ofFloat (a.toFloat * b.toFloat)⟩
instance : Div Number := ⟨fun a b => ofFloat (a.toFloat / b.toFloat)⟩

/-- Negation flips the sign bit, also of zeros and infinities. -/
instance : Neg Number := ⟨fun a => ⟨a.bits ^^^ 0x8000000000000000⟩⟩

/-- Numeric equality: both zeros are equal, and a NaN equals nothing. -/
def equals (a b : Number) : Bool := a.toFloat == b.toFloat

/-- Numeric order; a NaN is neither below nor above anything. -/
def less (a b : Number) : Bool := a.toFloat < b.toFloat

/-- Numeric order or equality; false if either side is a NaN. -/
def lessEqual (a b : Number) : Bool := a.toFloat ≤ b.toFloat

/-! ## Sign and rank -/

/-- The place value of the sign bit. -/
def signWeight : Nat := Nat.pow 2 63

/-- How many magnitudes there are from one power of two up to the next. -/
def binadeSize : Nat := Nat.pow 2 52

/-- Whether the sign bit is set. -/
def isNegative (n : Number) : Bool := decide (signWeight ≤ n.bits.toNat)

/-- The bit pattern without its sign, which numbers the magnitudes in increasing order. -/
def rank (n : Number) : Nat := n.bits.toNat % signWeight

/-- How many finite magnitudes there are, which is the rank of infinity. -/
def infinityRank : Nat := 2047 * binadeSize

/-- The number with this sign and rank. -/
def ofRank (negative : Bool) (rank : Nat) : Number :=
  ⟨UInt64.ofNat (if negative then signWeight + rank else rank)⟩

/-- Whether the magnitude is a finite one. -/
def isFinite (n : Number) : Bool := decide (n.rank < infinityRank)

/-- Whether the number is an infinity. -/
def isInfinite (n : Number) : Bool := n.rank == infinityRank

/-! ## Exact values -/

/-- The least positive magnitude is `1 / unitsPerOne`. -/
def unitsPerOne : Nat := Nat.pow 2 1074

/-- The exact value of a finite rank, counted in least positive magnitudes. -/
def units (rank : Nat) : Nat :=
  if rank < binadeSize then rank
  else (binadeSize + rank % binadeSize) * Nat.pow 2 (rank / binadeSize - 1)

/-- Whether the number is finite and has no fraction part. -/
def isIntegral (n : Number) : Bool := n.isFinite && units n.rank % unitsPerOne == 0

/-- The integer part of a finite magnitude. -/
def wholePart (n : Number) : Nat := units n.rank / unitsPerOne

end Number

end Rill
