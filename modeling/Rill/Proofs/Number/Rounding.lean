import Rill.Number.Rounding

/-!
# Rounding sees the value alone

A quotient is rounded by its value, however its numerator and denominator are scaled
(`rankOfUnits_congr`), and the exact value of a finite rank is rounded to that rank
(`rankOfUnits_units`).
-/

namespace Rill

section Rounding

variable {p q p' q' k : Nat}

theorem roundHalfEven_mul_right (positive : 0 < k) (p q : Nat) :
    roundHalfEven (p * k) (q * k) = roundHalfEven p q := by
  have above : q * k < 2 * (p % q) * k ↔ q < 2 * (p % q) := Nat.mul_lt_mul_right positive
  have half : 2 * (p % q) * k = q * k ↔ 2 * (p % q) = q :=
    ⟨Nat.eq_of_mul_eq_mul_right positive, fun same => by rw [same]⟩
  unfold roundHalfEven
  rw [Nat.mul_div_mul_right p q positive, Nat.mul_mod_mul_right, ← Nat.mul_assoc]
  simp only [above, half]

/-- A whole quotient is not rounded. -/
theorem roundHalfEven_mul_self (positive : 0 < q) (n : Nat) : roundHalfEven (n * q) q = n := by
  unfold roundHalfEven
  rw [Nat.mul_div_cancel n positive, Nat.mul_mod_left]
  have other : ¬ (q < 2 * 0 ∨ (2 * 0 = q ∧ n % 2 = 1)) := by omega
  exact if_neg other

namespace Number

theorem rankOfUnits_mul_right (positive : 0 < k) (p q : Nat) :
    rankOfUnits (p * k) (q * k) = rankOfUnits p q := by
  unfold rankOfUnits
  rw [Nat.mul_div_mul_right p q positive]
  dsimp only
  rw [Nat.mul_right_comm, roundHalfEven_mul_right positive]

/-- Equal quotients are rounded alike. -/
theorem rankOfUnits_congr (positive : 0 < q) (positive' : 0 < q') (same : p * q' = p' * q) :
    rankOfUnits p q = rankOfUnits p' q' := by
  rw [← rankOfUnits_mul_right positive' p q, same, Nat.mul_comm q q',
    rankOfUnits_mul_right positive]

end Number

end Rounding

namespace Number

variable {rank : Nat}

theorem log2_mul_two_pow {n : Nat} (positive : 0 < n) (scale : Nat) :
    Nat.log2 (n * Nat.pow 2 scale) = Nat.log2 n + scale := by
  induction scale with
  | zero => exact congrArg Nat.log2 (Nat.mul_one n)
  | succ scale ih =>
      have doubled : n * Nat.pow 2 (scale + 1) = 2 * (n * Nat.pow 2 scale) :=
        (congrArg (n * ·) Nat.pow_succ').trans (Nat.mul_left_comm ..)
      have nonzero : n * Nat.pow 2 scale ≠ 0 :=
        Nat.ne_of_gt (Nat.mul_pos positive (Nat.two_pow_pos scale))
      rw [doubled, Nat.log2_two_mul nonzero, ih, Nat.add_assoc]

/-- From the first normal magnitude on, the exponent is the place of the leading bit. -/
theorem log2_units (normal : binadeSize ≤ rank) :
    Nat.log2 (units rank) = 52 + (rank / binadeSize - 1) := by
  have fraction : rank % binadeSize < binadeSize := Nat.mod_lt rank (by decide)
  have significand : Nat.log2 (binadeSize + rank % binadeSize) = 52 := by
    refine (Nat.log2_eq_iff (by omega)).mpr ⟨Nat.le_add_right .., ?_⟩
    exact Nat.lt_of_lt_of_le (Nat.add_lt_add_left fraction binadeSize) (by decide)
  rw [units, if_neg (Nat.not_lt.mpr normal),
    log2_mul_two_pow (Nat.lt_of_lt_of_le (by decide) (Nat.le_add_right ..)), significand]

/-- The exact value of a finite rank is rounded to that rank. -/
theorem rankOfUnits_units (finite : rank < infinityRank) : rankOfUnits (units rank) 1 = rank := by
  have within : min infinityRank rank = rank := Nat.min_eq_right (Nat.le_of_lt finite)
  unfold rankOfUnits
  rw [Nat.div_one]
  dsimp only
  rw [Nat.one_mul]
  by_cases normal : binadeSize ≤ rank
  · have some : 0 < rank / binadeSize := Nat.div_pos normal (by decide)
    have scaled : 0 < Nat.pow 2 (rank / binadeSize - 1) := Nat.two_pow_pos _
    have joined :
        (rank / binadeSize - 1) * binadeSize + (binadeSize + rank % binadeSize) = rank := by
      rw [← Nat.add_assoc, ← Nat.succ_mul, Nat.succ_eq_add_one, Nat.sub_add_cancel some]
      exact Nat.div_add_mod' rank binadeSize
    rw [log2_units normal, Nat.add_sub_cancel_left, units, if_neg (Nat.not_lt.mpr normal),
      roundHalfEven_mul_self scaled, joined, within]
  · have small : rank < binadeSize := Nat.not_le.mp normal
    have unscaled : Nat.log2 rank - 52 = 0 := by
      by_cases zero : rank = 0
      · subst zero
        decide
      · exact Nat.sub_eq_zero_of_le (Nat.le_of_lt ((Nat.log2_lt zero).mpr small))
    have whole : roundHalfEven rank (Nat.pow 2 0) = rank := by
      simpa using roundHalfEven_mul_self Nat.one_pos rank
    rw [units, if_pos small, unscaled, Nat.zero_mul, Nat.zero_add, whole, within]

end Number

end Rill
