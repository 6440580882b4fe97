import FormSieve.Number.Binary64
import Mathlib.Algebra.Order.Field.Basic
import Mathlib.Order.Monotone.Basic
import Mathlib.Tactic.Linarith
import Mathlib.Tactic.Positivity
import Mathlib.Tactic.Ring

/-!
# The distances between doubles

The magnitudes of the doubles ascend with their ranks. From one double to the next the distance
is a power of two, which is small compared with the magnitude and, from the normal doubles on,
not much smaller than `2^-53` of it: a factor of `1 + 2^-53` never leads beyond the next double.
-/

namespace FormSieve.Binary64

/-- The distance from a double to the next one, in units. -/
def spacing (rank : Nat) : Nat := 2 ^ (rank / 2 ^ 52 - 1)

theorem spacing_pos (rank : Nat) : 0 < spacing rank := Nat.two_pow_pos _

/-- Where the digits of a double fill their 53 places, up to the last one that does. -/
theorem units_of_parts {shift digits : Nat} (full : shift = 0 ∨ 2 ^ 52 ≤ digits)
    (fits : digits ≤ 2 ^ 53) : units (shift * 2 ^ 52 + digits) = digits * 2 ^ shift := by
  rcases Nat.lt_or_ge digits (2 ^ 52) with small | large
  · obtain rfl : shift = 0 := full.resolve_right (by omega)
    rw [units, if_pos (by omega)]
    omega
  · rw [units, if_neg (by omega)]
    rcases Nat.lt_or_ge digits (2 ^ 53) with inside | last
    · have quotient : (shift * 2 ^ 52 + digits) / 2 ^ 52 = shift + 1 := by omega
      have remainder : (shift * 2 ^ 52 + digits) % 2 ^ 52 = digits - 2 ^ 52 := by omega
      rw [quotient, remainder, Nat.add_sub_cancel, Nat.add_sub_cancel' large]
    · obtain rfl : digits = 2 ^ 53 := by omega
      have quotient : (shift * 2 ^ 52 + 2 ^ 53) / 2 ^ 52 = shift + 2 := by omega
      have remainder : (shift * 2 ^ 52 + 2 ^ 53) % 2 ^ 52 = 0 := by omega
      rw [quotient, remainder, show shift + 2 - 1 = shift + 1 from rfl, pow_succ]
      ring

/-- Every rank is that of digits which fill their places. -/
theorem exists_parts (rank : Nat) :
    ∃ shift digits, rank = shift * 2 ^ 52 + digits ∧ (shift = 0 ∨ 2 ^ 52 ≤ digits) ∧
      digits < 2 ^ 53 ∧ spacing rank = 2 ^ shift := by
  rcases Nat.lt_or_ge rank (2 ^ 52) with small | large
  · refine ⟨0, rank, by omega, .inl rfl, by omega, ?_⟩
    rw [spacing, Nat.div_eq_of_lt small]
  · refine ⟨rank / 2 ^ 52 - 1, rank % 2 ^ 52 + 2 ^ 52, ?_, .inr (by omega), by omega, rfl⟩
    omega

theorem units_succ (rank : Nat) : units (rank + 1) = units rank + spacing rank := by
  obtain ⟨shift, digits, rfl, full, fits, spaced⟩ := exists_parts rank
  rw [spaced, Nat.add_assoc, units_of_parts full fits.le,
    units_of_parts (full.imp id fun h => by omega) (by omega)]
  ring

theorem units_strictMono : StrictMono units :=
  strictMono_nat_of_lt_succ fun rank => by
    have := spacing_pos rank
    rw [units_succ]
    omega

theorem units_pos {rank : Nat} (h : 0 < rank) : 0 < units rank := units_strictMono h

theorem units_lt_spacing (rank : Nat) : units rank < 2 ^ 53 * spacing rank := by
  obtain ⟨shift, digits, rfl, full, fits, spaced⟩ := exists_parts rank
  rw [spaced, units_of_parts full fits.le]
  exact Nat.mul_lt_mul_of_pos_right fits (Nat.two_pow_pos _)

theorem spacing_le_units {rank : Nat} (normal : 2 ^ 52 ≤ rank) :
    2 ^ 52 * spacing rank ≤ units rank := by
  obtain ⟨shift, digits, rfl, full, fits, spaced⟩ := exists_parts rank
  rw [spaced, units_of_parts full fits.le]
  exact Nat.mul_le_mul_right _ (by omega)

/-- The doubles below `2^-1021` are one unit apart. -/
theorem units_of_le {rank : Nat} (h : rank ≤ 2 ^ 53) : units rank = rank := by
  simpa using units_of_parts (.inl rfl : 0 = 0 ∨ 2 ^ 52 ≤ rank) h

/-! ## Ranks and factors -/

/-- The largest relative error of one rounding, as a factor. -/
def slack : ℚ := 1 + 1 / 2 ^ 53

theorem one_lt_slack : 1 < slack := by norm_num [slack]

theorem slack_pos : 0 < slack := one_pos.trans one_lt_slack

theorem units_mul_slack_le (rank : Nat) : (units rank : ℚ) * slack ≤ units (rank + 1) := by
  have h : (units rank : ℚ) ≤ 2 ^ 53 * spacing rank := by
    exact_mod_cast (units_lt_spacing rank).le
  rw [units_succ, slack]
  push_cast
  linarith

/-- Each factor leads at most one rank further. -/
theorem units_mul_slack_pow_le (rank k : Nat) :
    (units rank : ℚ) * slack ^ k ≤ units (rank + k) := by
  induction k with
  | zero => simp
  | succ k ih =>
      calc (units rank : ℚ) * slack ^ (k + 1)
          = units rank * slack ^ k * slack := by ring
        _ ≤ units (rank + k) * slack := mul_le_mul_of_nonneg_right ih slack_pos.le
        _ ≤ units (rank + k + 1) := units_mul_slack_le _

end FormSieve.Binary64
