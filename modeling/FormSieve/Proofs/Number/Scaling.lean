import FormSieve.Json.Reader
import FormSieve.Proofs.Number.Nearest
import Mathlib.Tactic.FieldSimp
import Mathlib.Tactic.NormNum

/-!
# Decimals as they are read

A reader scales the digits of a decimal by a power of ten in one or two steps, each of which
rounds. The outcome is within a few ranks of the decimal, and where the digits and the power of
ten are doubles themselves it is the rank nearest to the decimal.
-/

namespace FormSieve.Json

open Binary64

/-- What is at least one is normal. -/
theorem units_normal_le {n : Nat} (positive : 0 < n) :
    units (2 ^ 52 + 1) ≤ n * unitsPerOne := by
  obtain ⟨k, large, one⟩ := exists_unitsPerOne
  have small : 2 ^ 53 ≤ unitsPerOne := one ▸ Nat.pow_le_pow_right (by decide) (by omega)
  rw [units_of_le (by decide)]
  calc 2 ^ 52 + 1 ≤ unitsPerOne := le_trans (by decide) small
    _ ≤ n * unitsPerOne := Nat.le_mul_of_pos_left _ positive

theorem rankOfNat_rounds (n : Nat) : Rounds (rankOfNat n) (n * unitsPerOne : ℕ) := by
  have rounds := nearestRank_rounds (n * unitsPerOne) Nat.one_pos
  rwa [Nat.cast_one, div_one] at rounds

theorem rankOfNat_normal {n : Nat} (positive : 0 < n) : 2 ^ 52 < rankOfNat n :=
  (rankOfNat_rounds n).ge_of_ge (by exact_mod_cast units_normal_le positive)

theorem rankOfNat_within {n : Nat} (positive : 0 < n) :
    Within 1 (units (rankOfNat n)) (n * unitsPerOne : ℕ) :=
  (rankOfNat_rounds n).within_of_normal (rankOfNat_normal positive)

theorem units_rankOfNat_pos {n : Nat} (positive : 0 < n) : 0 < units (rankOfNat n) :=
  units_pos (Nat.lt_trans (by decide) (rankOfNat_normal positive))

section Steps

variable {a b one k k' : Nat} {x y : ℚ}

/-- A product is rounded from about the product of the magnitudes. -/
theorem mul_within (pos : 0 < one) (h : Within k a (x * one)) (h' : Within k' b (y * one))
    (hx : 0 ≤ x) (hy : 0 ≤ y) :
    Within (k + k') ((a * b : ℕ) / (one : ℕ)) (x * y * one) := by
  have pos : (0 : ℚ) < one := by exact_mod_cast pos
  have product := h.mul h' (by simp) (by simp) (mul_nonneg hx pos.le) (mul_nonneg hy pos.le)
  have scaled := product.div (Within.refl (one : ℚ)) (by positivity) pos (by positivity) pos
  have same : x * one * (y * one) / one = x * y * (one : ℚ) := by field_simp
  rw [same] at scaled
  exact_mod_cast scaled

/-- A quotient is rounded from about the quotient of the magnitudes. -/
theorem div_within (pos : 0 < one) (h : Within k a (x * one)) (h' : Within k' b (y * one))
    (hx : 0 ≤ x) (hy : 0 < y) (hb : 0 < b) :
    Within (k + k') ((a * one : ℕ) / (b : ℕ)) (x / y * one) := by
  have pos : (0 : ℚ) < one := by exact_mod_cast pos
  have hb : (0 : ℚ) < b := by exact_mod_cast hb
  have product := h.mul (Within.refl (one : ℚ)) (by simp) pos.le (mul_nonneg hx pos.le) pos.le
  have quotient := product.div h' (by positivity) hb (by positivity) (by positivity)
  have same : x * one * one / (y * one) = x / y * (one : ℚ) := by field_simp
  rw [same] at quotient
  exact_mod_cast quotient

end Steps

/-- What the largest power of ten leaves of a whole number is normal but for a factor of four. -/
theorem units_almost_normal_le : (2 ^ 50 + 3) * 10 ^ largestPower ≤ unitsPerOne := by
  decide +kernel

section Powers

variable {significand power : Nat} (positive : 0 < significand) (hpower : 0 < power)
include positive hpower

/-- A whole number times another one, both rounded first. -/
theorem product_within :
    Within 2 ((units (rankOfNat significand) * units (rankOfNat power) : ℕ) / (unitsPerOne : ℕ))
      (significand * power * unitsPerOne) := by
  have start : Within 1 (units (rankOfNat significand)) (significand * unitsPerOne) := by
    exact_mod_cast rankOfNat_within positive
  have scale : Within 1 (units (rankOfNat power)) (power * unitsPerOne) := by
    exact_mod_cast rankOfNat_within hpower
  have product : Within (1 + 1) _ _ :=
    mul_within unitsPerOne_pos start scale (Nat.cast_nonneg _) (Nat.cast_nonneg _)
  exact product

/-- A whole number divided by another one, both rounded first. -/
theorem quotient_within :
    Within 2 ((units (rankOfNat significand) * unitsPerOne : ℕ) / (units (rankOfNat power) : ℕ))
      (significand / power * unitsPerOne) := by
  have start : Within 1 (units (rankOfNat significand)) (significand * unitsPerOne) := by
    exact_mod_cast rankOfNat_within positive
  have scale : Within 1 (units (rankOfNat power)) (power * unitsPerOne) := by
    exact_mod_cast rankOfNat_within hpower
  have quotient : Within (1 + 1) _ _ := div_within unitsPerOne_pos start scale
    (Nat.cast_nonneg _) (by exact_mod_cast hpower) (units_rankOfNat_pos hpower)
  exact quotient

/-- The outcome of that, unless it is far too small to be normal. -/
theorem divRank_within (large : (2 ^ 50 + 3) * power ≤ unitsPerOne) :
    Within 6 (units (divRank (rankOfNat significand) (rankOfNat power)))
      (significand / power * unitsPerOne) := by
  have quotient := quotient_within positive hpower
  have rounds : Rounds (divRank (rankOfNat significand) (rankOfNat power)) _ :=
    nearestRank_rounds (units (rankOfNat significand) * unitsPerOne) (units_rankOfNat_pos hpower)
  have large : 2 ^ 50 < divRank (rankOfNat significand) (rankOfNat power) := by
    refine rounds.ge_of_ge (le_of_mul_le_mul_right ?_ (pow_pos slack_pos 2))
    refine le_trans (units_mul_slack_pow_le _ _) (le_trans ?_ quotient.2)
    rw [units_of_le (by decide), div_mul_eq_mul_div, le_div_iff₀ (by exact_mod_cast hpower)]
    calc ((2 ^ 50 + 1 + 2 : ℕ) : ℚ) * power ≤ unitsPerOne := by exact_mod_cast large
      _ ≤ significand * unitsPerOne :=
          le_mul_of_one_le_left (Nat.cast_nonneg _) (by exact_mod_cast positive)
  have outcome : Within (4 + 2) _ _ := (rounds.within_of_almost_normal large).trans quotient
  exact outcome

end Powers

section Cases

variable (significand : Nat) {k : Nat}

theorem scaledRank_up (few : k ≤ largestPower) :
    scaledRank significand k =
      nearestRank (units (rankOfNat significand) * units (rankOfNat (10 ^ k))) unitsPerOne := by
  rw [scaledRank, Int.natAbs_natCast, if_pos (Int.natCast_nonneg k), if_pos few]
  rfl

theorem scaledRank_down (positive : 0 < k) (few : k ≤ largestPower) :
    scaledRank significand (-k) =
      nearestRank (units (rankOfNat significand) * unitsPerOne) (units (rankOfNat (10 ^ k))) := by
  rw [scaledRank, Int.natAbs_neg, Int.natAbs_natCast, if_neg (by omega), if_pos few]
  rfl

theorem scaledRank_far (many : largestPower < k) (few : k ≤ 2 * largestPower) :
    scaledRank significand (-k) =
      nearestRank
        (units (divRank (rankOfNat significand) (rankOfNat (10 ^ largestPower))) * unitsPerOne)
        (units (rankOfNat (10 ^ (k - largestPower)))) := by
  rw [scaledRank, Int.natAbs_neg, Int.natAbs_natCast, if_neg (by omega),
    if_neg (Nat.not_le.2 many), if_pos few]
  rfl

end Cases

/-- Dividing by a power of ten in one step or in two. -/
theorem scaledUnits_neg (significand k : Nat) :
    scaledUnits significand (-k) = significand / (10 ^ k : ℕ) * unitsPerOne := by
  rw [scaledUnits, zpow_neg, zpow_natCast, Nat.cast_pow, div_eq_mul_inv]
  rfl

/-- A decimal is read as the rank nearest to a magnitude that is at most seven roundings away. -/
theorem exists_scaledRank_eq {significand : Nat} {exponent : Int} (positive : 0 < significand)
    (low : -616 ≤ exponent) (high : exponent ≤ 308) :
    ∃ n d, 0 < d ∧ scaledRank significand exponent = nearestRank n d ∧
      Within 7 ((n : ℕ) / (d : ℕ)) (scaledUnits significand exponent) := by
  have power : ∀ k, 0 < 10 ^ k := fun k => Nat.pow_pos (by decide)
  have mono : ∀ {k n d : Nat}, k ≤ 7 →
      Within k ((n : ℕ) / (d : ℕ)) (scaledUnits significand exponent) →
        Within 7 ((n : ℕ) / (d : ℕ)) (scaledUnits significand exponent) := fun few h =>
    h.mono few (by positivity) (scaledUnits_nonneg _ _)
  rcases lt_or_ge exponent 0 with down | up
  · obtain ⟨k, rfl⟩ := Int.exists_eq_neg_ofNat down.le
    rw [scaledUnits_neg] at mono ⊢
    rcases Nat.lt_or_ge largestPower k with far | near
    · refine ⟨_, _, units_rankOfNat_pos (power _),
        scaledRank_far significand far (by rw [largestPower]; omega), ?_⟩
      have start := divRank_within positive (power largestPower) units_almost_normal_le
      have scale : Within 1 (units (rankOfNat (10 ^ (k - largestPower))))
          ((10 ^ (k - largestPower) : ℕ) * unitsPerOne) := by
        exact_mod_cast rankOfNat_within (power _)
      have quotient := div_within unitsPerOne_pos start scale (by positivity) (by positivity)
        (units_rankOfNat_pos (power _))
      rw [div_div, ← Nat.cast_mul, ← pow_add, Nat.add_sub_cancel' far.le] at quotient
      exact quotient
    · have quotient := quotient_within positive (power k)
      exact ⟨_, _, units_rankOfNat_pos (power k), scaledRank_down significand (by omega) near,
        mono (by decide) quotient⟩
  · obtain ⟨k, rfl⟩ := Int.eq_ofNat_of_zero_le up
    have product := product_within positive (power k)
    rw [Nat.cast_pow, ← zpow_natCast] at product
    exact ⟨_, _, unitsPerOne_pos, scaledRank_up significand (by rw [largestPower]; omega),
      mono (by decide) product⟩

section Bounds

variable {significand rank : Nat} {exponent : Int} (positive : 0 < significand)
  (low : -616 ≤ exponent) (high : exponent ≤ 308)
include positive low high

/-- What is not above a rank is read as at most seven ranks above it. -/
theorem scaledRank_le_of_le (h : scaledUnits significand exponent ≤ units rank) :
    scaledRank significand exponent ≤ rank + 7 := by
  obtain ⟨n, d, pos, same, near⟩ := exists_scaledRank_eq positive low high
  rw [same]
  refine (nearestRank_rounds n pos).le_of_le (near.1.trans ?_)
  exact (mul_le_mul_of_nonneg_right h (pow_pos slack_pos 7).le).trans (units_mul_slack_pow_le _ _)

/-- What is not below a rank is read as at most seven ranks below it. -/
theorem le_scaledRank_of_le (h : units rank ≤ scaledUnits significand exponent) :
    rank ≤ scaledRank significand exponent + 7 := by
  obtain ⟨n, d, pos, same, near⟩ := exists_scaledRank_eq positive low high
  rw [same]
  rcases Nat.lt_or_ge rank 7 with small | large
  · omega
  · obtain ⟨rank, rfl⟩ := Nat.exists_eq_add_of_le' large
    refine Nat.add_le_add_right ((nearestRank_rounds n pos).ge_of_ge ?_) 7
    refine le_of_mul_le_mul_right ?_ (pow_pos slack_pos 7)
    exact (units_mul_slack_pow_le rank 7).trans (h.trans near.2)

end Bounds

/-! ## Exact steps -/

/-- A few binary digits followed by zeros are the magnitude of a double. -/
theorem exists_units_eq {digits : Nat} (h : digits ≤ 2 ^ 53) (shift : Nat) :
    ∃ rank, units rank = digits * 2 ^ shift := by
  induction shift generalizing digits with
  | zero => exact ⟨digits, by simpa using units_of_le h⟩
  | succ shift ih =>
      rcases Nat.lt_or_ge digits (2 ^ 52) with small | large
      · obtain ⟨rank, same⟩ := ih (by omega : 2 * digits ≤ 2 ^ 53)
        exact ⟨rank, by rw [same]; ring⟩
      · exact ⟨_, units_of_parts (.inr large) h⟩

/-- Such a whole number is a double. -/
theorem units_rankOfNat {digits : Nat} (h : digits ≤ 2 ^ 53) (shift : Nat) :
    units (rankOfNat (digits * 2 ^ shift)) = digits * 2 ^ shift * unitsPerOne := by
  obtain ⟨k, -, one⟩ := exists_unitsPerOne
  obtain ⟨rank, same⟩ := exists_units_eq h (shift + k)
  have whole : units rank = digits * 2 ^ shift * unitsPerOne := by rw [same, one, pow_add]; ring
  have rounds := rankOfNat_rounds (digits * 2 ^ shift)
  rw [← whole] at rounds
  rw [rounds.unique (rounds_units rank), whole]

/-- The powers of ten up to `10 ^ 22` are doubles. -/
theorem units_rankOfNat_power {k : Nat} (h : k ≤ 22) :
    units (rankOfNat (10 ^ k)) = 10 ^ k * unitsPerOne := by
  have few : 5 ^ k ≤ 2 ^ 53 := le_trans (Nat.pow_le_pow_right (by decide) h) (by decide)
  have split : 10 ^ k = 5 ^ k * 2 ^ k := by rw [← Nat.mul_pow]
  rw [split, units_rankOfNat few k]

theorem product_of_exact (a b : Nat) {one : Nat} (pos : 0 < one) :
    ((a * one * (b * one) : ℕ) : ℚ) / one = a * b * one := by
  have pos : (one : ℚ) ≠ 0 := by exact_mod_cast pos.ne'
  push_cast
  field_simp

theorem quotient_of_exact (a : Nat) {b one : Nat} (hb : 0 < b) (pos : 0 < one) :
    ((a * one * one : ℕ) : ℚ) / (b * one : ℕ) = a / b * one := by
  have pos : (one : ℚ) ≠ 0 := by exact_mod_cast pos.ne'
  have hb : (b : ℚ) ≠ 0 := by exact_mod_cast hb.ne'
  push_cast
  field_simp

/-- Where the digits and the power of ten are doubles, one step makes a single rounding. -/
theorem scaledRank_of_exact {significand rank : Nat} {exponent : Int}
    (few : significand ≤ 2 ^ 53) (near : exponent.natAbs ≤ 22)
    (h : Rounds rank (scaledUnits significand exponent)) :
    scaledRank significand exponent = rank := by
  have start : units (rankOfNat significand) = significand * unitsPerOne := by
    simpa using units_rankOfNat few 0
  have pos := unitsPerOne_pos
  rcases lt_or_ge exponent 0 with down | up
  · obtain ⟨k, rfl⟩ := Int.exists_eq_neg_ofNat down.le
    have near : k ≤ 22 := by omega
    have power : 0 < 10 ^ k := Nat.pow_pos (by decide)
    rw [scaledRank_down significand (by omega) (by rw [largestPower]; omega), start,
      units_rankOfNat_power near]
    rw [scaledUnits_neg, ← quotient_of_exact significand power pos] at h
    exact nearestRank_eq (Nat.mul_pos power pos) h
  · obtain ⟨k, rfl⟩ := Int.eq_ofNat_of_zero_le up
    have near : k ≤ 22 := by omega
    rw [scaledRank_up significand (by rw [largestPower]; omega), start, units_rankOfNat_power near]
    rw [scaledUnits, zpow_natCast, ← Nat.cast_ofNat, ← Nat.cast_pow,
      ← product_of_exact significand _ pos] at h
    exact nearestRank_eq pos h

end FormSieve.Json
