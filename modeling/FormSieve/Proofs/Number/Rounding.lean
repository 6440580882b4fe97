import FormSieve.Json.Value

/-!
# Rounding whole numbers to doubles

A whole number other than zero is at least one unit of the last place of a subnormal double by
far, so rounding never takes it to zero.
-/

namespace FormSieve

namespace Binary64

/-- One is a power of two in units, whose size is all that matters here. -/
theorem exists_unitsPerOne : ∃ k, k = 1074 ∧ unitsPerOne = 2 ^ k :=
  ⟨1074, rfl, by rw [unitsPerOne]⟩

/-- Only zero is rounded to the rank of zero. -/
theorem rankOfNat_eq_zero_iff (n : Nat) : rankOfNat n = 0 ↔ n = 0 := by
  obtain ⟨k, hk, one⟩ := exists_unitsPerOne
  rcases Nat.eq_zero_or_pos n with rfl | positive
  · simp [rankOfNat, nearestRank, roundHalfEven]
  · have units : n * 2 ^ k ≠ 0 :=
      Nat.mul_ne_zero (Nat.ne_of_gt positive) (Nat.ne_of_gt (Nat.two_pow_pos k))
    have large : k ≤ (n * 2 ^ k).log2 :=
      (Nat.le_log2 units).2 (Nat.le_mul_of_pos_left _ positive)
    have spaced : 0 < ((n * 2 ^ k).log2 - 52) * 2 ^ 52 :=
      Nat.mul_pos (by omega) (Nat.two_pow_pos 52)
    simp only [rankOfNat, nearestRank, Nat.div_one, one]
    omega

end Binary64

namespace Json.Number

/-- The double of a whole number is zero only for zero. -/
theorem signedRank_integer_eq_zero_iff (n : Int) (fits : -2 ^ 63 ≤ n ∧ n < 2 ^ 64) :
    (integer n fits).signedRank = 0 ↔ n = 0 := by
  have rank := Binary64.rankOfNat_eq_zero_iff n.natAbs
  simp only [signedRank]
  split <;> omega

/-- The doubles that are zero are the two of rank zero. -/
theorem signedRank_float_eq_zero_iff (x : Binary64) :
    (float x).signedRank = 0 ↔ x.rank = 0 := by
  simp only [signedRank, Binary64.signedRank]
  split <;> omega

end Json.Number

end FormSieve
