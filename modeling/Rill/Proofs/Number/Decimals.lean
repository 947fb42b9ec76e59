import Rill.Number.Notation
import Rill.Proofs.Number.Rounding

/-!
# The shortest decimal reads back

The rank of a decimal depends on its value alone, so zeros may move from its digits into its
exponent. Each grid offers only decimals that round back, and a magnitude written out exactly does
so as well. Hence the decimal that is found for a finite number has the rank of that number
(`Number.rank_shortestDecimal`).
-/

namespace Rill

open Number (infinityRank onGrid rankOfUnits search units unitsPerOne)

namespace Decimal

variable {d : Decimal}

/-! ## Values -/

/-- The numerator of the value of a decimal over a power of ten. -/
def numerator (d : Decimal) : Nat := d.digits * Nat.pow 10 d.exponent.toNat

/-- The power of ten that the value of a decimal has for its denominator. -/
def denominator (d : Decimal) : Nat := Nat.pow 10 (-d.exponent).toNat

theorem denominator_pos (d : Decimal) : 0 < d.denominator := Nat.pow_pos (by decide)

/-- The rank of a decimal is the one nearest to its value. -/
theorem rank_eq (d : Decimal) : d.rank = rankOfUnits (d.numerator * unitsPerOne) d.denominator := by
  rw [rank]
  split
  · next whole =>
      have none : (-d.exponent).toNat = 0 := by omega
      rw [numerator, denominator, none]
  · next fraction =>
      have none : d.exponent.toNat = 0 := by omega
      have digits : d.numerator = d.digits := by
        rw [numerator, none]
        exact Nat.mul_one d.digits
      rw [digits, denominator]

/-- A quotient that equals a decimal is rounded to the rank of the decimal. -/
theorem rankOfUnits_eq_rank {p q : Nat} (positive : 0 < q)
    (same : p * d.denominator = d.numerator * q) : rankOfUnits (p * unitsPerOne) q = d.rank := by
  rw [rank_eq]
  refine Number.rankOfUnits_congr positive d.denominator_pos ?_
  rw [Nat.mul_right_comm, same, Nat.mul_right_comm]

theorem rank_neg (digits places : Nat) :
    rank ⟨digits, -places⟩ = rankOfUnits (digits * unitsPerOne) (Nat.pow 10 places) := by
  refine (rankOfUnits_eq_rank (Nat.pow_pos (by decide)) ?_).symm
  simp [numerator, denominator]

/-! ## Zeros at the end -/

/-- A zero at the end of the digits may be moved into the exponent. -/
theorem rank_div_ten (zero : d.digits % 10 = 0) :
    rank ⟨d.digits / 10, d.exponent + 1⟩ = d.rank := by
  obtain ⟨digits, exponent⟩ := d
  obtain ⟨digits, rfl⟩ := Nat.dvd_of_mod_eq_zero zero
  rw [rank_eq]
  refine rankOfUnits_eq_rank (denominator_pos _) ?_
  simp only [numerator, denominator, Nat.mul_div_cancel_left digits (show 0 < 10 by decide)]
  by_cases whole : 0 ≤ exponent
  · have next : (exponent + 1).toNat = exponent.toNat + 1 := by omega
    have none : (-exponent).toNat = 0 := by omega
    have none' : (-(exponent + 1)).toNat = 0 := by omega
    rw [next, none, none', Nat.pow_eq, Nat.pow_eq, Nat.pow_eq, Nat.pow_succ']
    ac_rfl
  · have next : (-exponent).toNat = (-(exponent + 1)).toNat + 1 := by omega
    have none : exponent.toNat = 0 := by omega
    have none' : (exponent + 1).toNat = 0 := by omega
    rw [next, none, none', Nat.pow_eq, Nat.pow_eq, Nat.pow_eq, Nat.pow_succ']
    ac_rfl

theorem rank_trim (fuel : Nat) (d : Decimal) : (trim fuel d).rank = d.rank := by
  induction fuel generalizing d with
  | zero => rfl
  | succ fuel ih =>
      rw [trim]
      split
      · next zero => rw [ih, rank_div_ten zero.2]
      · rfl

end Decimal

namespace Number

variable {tie : Tie} {rank : Nat}

/-! ## The search -/

/-- What a grid offers rounds back. -/
theorem rank_of_onGrid {place : Int} {d : Decimal} (found : onGrid tie rank place = some d) :
    d.rank = rank := by
  have offered {near far : Decimal} (found : (if near.rank = rank then some near
      else if far.rank = rank then some far else none) = some d) : d.rank = rank := by
    split at found
    · next same => exact Option.some.inj found ▸ same
    · split at found
      · next same => exact Option.some.inj found ▸ same
      · cases found
  unfold onGrid at found
  exact offered found

variable (finite : rank < infinityRank)

include finite

/-- A magnitude that is written out exactly rounds back. -/
theorem rank_exactDecimal : (exactDecimal (units rank)).rank = rank := by
  have exponent : (-1074 : Int) = -((1074 : Nat) : Int) := rfl
  rw [exactDecimal, exponent, Decimal.rank_neg]
  unfold unitsPerOne
  -- With the literal in place, unification would work out the powers.
  generalize 1074 = places
  have positive : 0 < Nat.pow 10 places := Nat.pow_pos (by decide)
  have powers : Nat.pow 10 places = Nat.pow 5 places * Nat.pow 2 places := Nat.mul_pow 5 2 places
  refine (rankOfUnits_congr positive Nat.one_pos ?_).trans (rankOfUnits_units finite)
  rw [Nat.mul_one, powers, Nat.mul_assoc]

theorem rank_search (leading : Int) (finer length : Nat) :
    (search tie rank leading finer length).rank = rank := by
  induction finer generalizing length with
  | zero => exact rank_exactDecimal finite
  | succ finer ih =>
      rw [search]
      cases found : onGrid tie rank (leading - length) with
      | none => exact ih (length + 1)
      | some d => exact rank_of_onGrid found

theorem rank_shortest : (shortest tie rank).rank = rank := by
  rw [shortest, Decimal.rank_trim, rank_search finite]

omit finite

/-- The decimal that is written for a finite number rounds back to its rank. -/
theorem rank_shortestDecimal {n : Number} (finite : n.isFinite = true) :
    (n.shortestDecimal tie).rank = n.rank := by
  rw [shortestDecimal]
  split
  · next zero =>
      rw [zero]
      decide +kernel
  · exact rank_shortest (of_decide_eq_true finite)

end Number

end Rill
