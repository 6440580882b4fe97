import FormSieve.Proofs.Number.Rounding
import FormSieve.Proofs.Number.Spacing
import Mathlib.Algebra.Order.Field.Power
import Mathlib.Algebra.Order.Ring.Pow

/-!
# Rounding to the nearest double

A magnitude rounds to a rank if it is not beyond the midpoints to the neighbours of the rank, and
not at them if the rank is odd. That is how arithmetic on units rounds and what the shortest
decimal of a double is tested for. Each magnitude rounds to one rank only.
-/

namespace FormSieve.Binary64

theorem unitsPerOne_pos : 0 < unitsPerOne := by
  obtain ⟨k, -, one⟩ := exists_unitsPerOne
  rw [one]
  exact Nat.two_pow_pos k

/-- The number `significand * 10 ^ exponent`, in units. -/
def scaledUnits (significand : Nat) (exponent : Int) : ℚ :=
  significand * 10 ^ exponent * unitsPerOne

theorem scaledUnits_nonneg (significand : Nat) (exponent : Int) :
    0 ≤ scaledUnits significand exponent :=
  mul_nonneg (by positivity) (Nat.cast_nonneg _)

/-- The magnitude `x`, in units, rounds to the rank. -/
structure Rounds (rank : Nat) (x : ℚ) : Prop where
  low : (units (rank - 1) + units rank : ℚ) ≤ 2 * x
  high : 2 * x ≤ units rank + units (rank + 1)
  inside : rank % 2 = 1 →
    (units (rank - 1) + units rank : ℚ) < 2 * x ∧ 2 * x < units rank + units (rank + 1)

/-- The nearest whole number is at most half away, and if it is odd by less. -/
theorem roundHalfEven_spec (n : Nat) {d : Nat} (positive : 0 < d) :
    2 * (roundHalfEven n d * d) ≤ 2 * n + d ∧ 2 * n ≤ 2 * (roundHalfEven n d * d) + d ∧
      (roundHalfEven n d % 2 = 1 →
        2 * (roundHalfEven n d * d) < 2 * n + d ∧ 2 * n < 2 * (roundHalfEven n d * d) + d) := by
  have parts := Nat.div_add_mod' n d
  have small := Nat.mod_lt n positive
  have next : (n / d + 1) * d = n / d * d + d := Nat.succ_mul _ _
  unfold roundHalfEven
  split_ifs with below above
  · omega
  · rw [next]
    omega
  · rcases Nat.mod_two_eq_zero_or_one (n / d) with even | odd
    · rw [even, Nat.add_zero]
      omega
    · rw [odd, next]
      omega

theorem roundHalfEven_le {n d k : Nat} (h : n ≤ k * d) (positive : 0 < d) :
    roundHalfEven n d ≤ k := by
  have spec := (roundHalfEven_spec n positive).1
  by_contra beyond
  have more : (k + 1) * d ≤ roundHalfEven n d * d := Nat.mul_le_mul_right d (by omega)
  rw [Nat.succ_mul] at more
  omega

theorem le_roundHalfEven {n d k : Nat} (h : k * d ≤ n) (positive : 0 < d) :
    k ≤ roundHalfEven n d := by
  have spec := (roundHalfEven_spec n positive).2.1
  by_contra beyond
  have more : (roundHalfEven n d + 1) * d ≤ k * d := Nat.mul_le_mul_right d (by omega)
  rw [Nat.succ_mul] at more
  omega

/-- Rounding to the nearest rank is rounding the digits that fill their places. -/
theorem exists_nearestRank_parts (n : Nat) {d : Nat} (positive : 0 < d) :
    ∃ shift, nearestRank n d = shift * 2 ^ 52 + roundHalfEven n (d * 2 ^ shift) ∧
      (shift = 0 ∨ 2 ^ 52 * (d * 2 ^ shift) ≤ n) ∧
      roundHalfEven n (d * 2 ^ shift) ≤ 2 ^ 53 := by
  refine ⟨(n / d).log2 - 52, rfl, ?_, ?_⟩
  · rcases Nat.le_total (n / d).log2 52 with small | large
    · exact .inl (Nat.sub_eq_zero_of_le small)
    · refine .inr ?_
      have nonzero : n / d ≠ 0 := by
        intro zero
        simp [zero] at large
      calc 2 ^ 52 * (d * 2 ^ ((n / d).log2 - 52))
          = 2 ^ (52 + ((n / d).log2 - 52)) * d := by rw [pow_add]; ring
        _ = 2 ^ (n / d).log2 * d := by rw [Nat.add_sub_cancel' large]
        _ ≤ n / d * d := Nat.mul_le_mul_right d (Nat.log2_self_le nonzero)
        _ ≤ n := Nat.div_mul_le_self n d
  · refine roundHalfEven_le ?_ (Nat.mul_pos positive (Nat.two_pow_pos _))
    have below : n / d < 2 ^ ((n / d).log2 + 1) := Nat.lt_log2_self
    calc n ≤ 2 ^ ((n / d).log2 + 1) * d := ((Nat.div_lt_iff_lt_mul positive).1 below).le
      _ ≤ 2 ^ (53 + ((n / d).log2 - 52)) * d :=
          Nat.mul_le_mul_right d (Nat.pow_le_pow_right (by decide) (by omega))
      _ = 2 ^ 53 * (d * 2 ^ ((n / d).log2 - 52)) := by rw [pow_add]; ring

/-- When a quotient rounds to a rank, in whole numbers. -/
theorem rounds_div_iff {rank n d : Nat} (positive : 0 < d) :
    Rounds rank (n / d) ↔
      (units (rank - 1) + units rank) * d ≤ 2 * n ∧ 2 * n ≤ (units rank + units (rank + 1)) * d ∧
        (rank % 2 = 1 → (units (rank - 1) + units rank) * d < 2 * n ∧
          2 * n < (units rank + units (rank + 1)) * d) := by
  have pos : (0 : ℚ) < d := by exact_mod_cast positive
  have scaled : 2 * ((n : ℚ) / d) = (2 * n : ℕ) / d := by
    push_cast
    ring
  have le : ∀ a : ℕ, (a : ℚ) ≤ 2 * (n / d) ↔ a * d ≤ 2 * n := fun a => by
    rw [scaled, le_div_iff₀ pos]
    exact_mod_cast Iff.rfl
  have ge : ∀ a : ℕ, 2 * ((n : ℚ) / d) ≤ a ↔ 2 * n ≤ a * d := fun a => by
    rw [scaled, div_le_iff₀ pos]
    exact_mod_cast Iff.rfl
  have lt : ∀ a : ℕ, (a : ℚ) < 2 * (n / d) ↔ a * d < 2 * n := fun a => by
    rw [scaled, lt_div_iff₀ pos]
    exact_mod_cast Iff.rfl
  have gt : ∀ a : ℕ, 2 * ((n : ℚ) / d) < a ↔ 2 * n < a * d := fun a => by
    rw [scaled, div_lt_iff₀ pos]
    exact_mod_cast Iff.rfl
  rw [← le, ← ge, ← lt, ← gt]
  push_cast
  exact ⟨fun ⟨low, high, inside⟩ => ⟨low, high, inside⟩, fun ⟨low, high, inside⟩ =>
    ⟨low, high, inside⟩⟩

section Parts

variable {shift digits : Nat}

/-- The midpoint to the next rank is at least half a step away. -/
theorem le_units_add_units_succ (full : shift = 0 ∨ 2 ^ 52 ≤ digits) (fits : digits ≤ 2 ^ 53) :
    2 * (digits * 2 ^ shift) + 2 ^ shift ≤
      units (shift * 2 ^ 52 + digits) + units (shift * 2 ^ 52 + digits + 1) := by
  have above : 2 ^ shift ≤ spacing (shift * 2 ^ 52 + digits) :=
    Nat.pow_le_pow_right (by decide) (by omega)
  rw [units_succ, units_of_parts full fits]
  omega

/-- So is the midpoint to the rank before, unless the digits are the least that fill their
places. -/
theorem units_pred_add_units (more : shift = 0 ∧ 0 < digits ∨ 2 ^ 52 < digits)
    (fits : digits ≤ 2 ^ 53) :
    units (shift * 2 ^ 52 + digits - 1) + units (shift * 2 ^ 52 + digits) + 2 ^ shift =
      2 * (digits * 2 ^ shift) := by
  obtain ⟨digits, rfl⟩ : ∃ k, digits = k + 1 := Nat.exists_eq_add_one_of_ne_zero (by omega)
  have before := units_of_parts (by omega : shift = 0 ∨ 2 ^ 52 ≤ digits) (by omega)
  have here := units_of_parts (by omega : shift = 0 ∨ 2 ^ 52 ≤ digits + 1) fits
  rw [← Nat.add_assoc] at here ⊢
  rw [Nat.add_sub_cancel, before, here]
  ring

theorem units_pred_add_units_le (full : shift = 0 ∨ 2 ^ 52 ≤ digits) (fits : digits ≤ 2 ^ 53) :
    units (shift * 2 ^ 52 + digits - 1) + units (shift * 2 ^ 52 + digits) ≤
      2 * (digits * 2 ^ shift) := by
  have before := units_strictMono.monotone (Nat.sub_le (shift * 2 ^ 52 + digits) 1)
  rw [units_of_parts full fits] at *
  omega

end Parts

/-- The nearest rank is the one that the magnitude rounds to. -/
theorem nearestRank_rounds (n : Nat) {d : Nat} (positive : 0 < d) :
    Rounds (nearestRank n d) (n / d) := by
  obtain ⟨shift, same, large, fits⟩ := exists_nearestRank_parts n positive
  have step : 0 < d * 2 ^ shift := Nat.mul_pos positive (Nat.two_pow_pos _)
  have full : shift = 0 ∨ 2 ^ 52 ≤ roundHalfEven n (d * 2 ^ shift) :=
    large.imp id fun h => le_roundHalfEven h step
  obtain ⟨low, high, inside⟩ := roundHalfEven_spec n step
  have floor : roundHalfEven n (d * 2 ^ shift) = 2 ^ 52 → shift ≠ 0 →
      roundHalfEven n (d * 2 ^ shift) * (d * 2 ^ shift) ≤ n := fun last scaled =>
    last ▸ large.resolve_left scaled
  rw [rounds_div_iff positive, same]
  generalize roundHalfEven n (d * 2 ^ shift) = digits at *
  have odd : (shift * 2 ^ 52 + digits) % 2 = digits % 2 := by omega
  have value : digits * 2 ^ shift * d = digits * (d * 2 ^ shift) := by ring
  have above := Nat.mul_le_mul_right d (le_units_add_units_succ full fits)
  have unit : 2 ^ shift * d = d * 2 ^ shift := Nat.mul_comm _ _
  rw [Nat.add_mul, Nat.mul_assoc, value, unit] at above
  rw [odd]
  by_cases more : shift = 0 ∧ 0 < digits ∨ 2 ^ 52 < digits
  · have below := congrArg (· * d) (units_pred_add_units more fits)
    rw [Nat.add_mul _ (2 ^ shift), Nat.mul_assoc 2, value, unit] at below
    omega
  · -- The magnitude is not below the digits, so all that matters is that the rank before is.
    have floor : digits * (d * 2 ^ shift) ≤ n := by
      rcases Nat.eq_zero_or_pos digits with rfl | digitsPos
      · simp
      · exact floor (by omega) (by omega)
    have even : digits % 2 = 0 := by omega
    have below := Nat.mul_le_mul_right d (units_pred_add_units_le full fits)
    rw [Nat.mul_assoc 2, value] at below
    omega

/-! ## What rounding to a rank means -/

namespace Rounds

variable {rank rank' : Nat} {x : ℚ}

/-- A magnitude that is not above a rank does not round to a rank above it. -/
theorem le_of_le (h : Rounds rank x) (above : x ≤ units rank') : rank ≤ rank' := by
  by_contra beyond
  have low := h.low
  have before : (units rank' : ℚ) ≤ units (rank - 1) := by
    exact_mod_cast units_strictMono.monotone (show rank' ≤ rank - 1 by omega)
  have here : (units rank' : ℚ) < units rank := by
    exact_mod_cast units_strictMono (show rank' < rank by omega)
  linarith

/-- A magnitude that is not below a rank does not round to a rank below it. -/
theorem ge_of_ge (h : Rounds rank x) (below : units rank' ≤ x) : rank' ≤ rank := by
  by_contra beyond
  have high := h.high
  have next : (units (rank + 1) : ℚ) ≤ units rank' := by
    exact_mod_cast units_strictMono.monotone (show rank + 1 ≤ rank' by omega)
  have here : (units rank : ℚ) < units rank' := by
    exact_mod_cast units_strictMono (show rank < rank' by omega)
  linarith

/-- The magnitude is between the neighbours of the rank. -/
theorem between (h : Rounds rank x) : units (rank - 1) ≤ x ∧ x ≤ units (rank + 1) := by
  have before : (units (rank - 1) : ℚ) ≤ units rank := by
    exact_mod_cast units_strictMono.monotone (Nat.sub_le rank 1)
  have next : (units rank : ℚ) ≤ units (rank + 1) := by
    exact_mod_cast units_strictMono.monotone (Nat.le_succ rank)
  have low := h.low
  have high := h.high
  constructor <;> linarith

/-- A magnitude rounds to one rank only: midpoints go to the even rank. -/
theorem unique (h : Rounds rank x) (h' : Rounds rank' x) : rank = rank' := by
  have one : ∀ {rank rank' : Nat}, Rounds rank x → Rounds rank' x → ¬rank < rank' := by
    intro rank rank' h h' before
    have here : (units rank : ℚ) ≤ units (rank' - 1) := by
      exact_mod_cast units_strictMono.monotone (show rank ≤ rank' - 1 by omega)
    have next : (units (rank + 1) : ℚ) ≤ units rank' := by
      exact_mod_cast units_strictMono.monotone (show rank + 1 ≤ rank' by omega)
    have low := h'.low
    have high := h.high
    -- Two ranks that meet at a midpoint are neighbours, so one of them is odd.
    have neighbours : rank' = rank + 1 := by
      by_contra apart
      have gap : (units (rank + 1) : ℚ) < units rank' := by
        exact_mod_cast units_strictMono (show rank + 1 < rank' by omega)
      linarith
    subst neighbours
    rcases Nat.mod_two_eq_zero_or_one rank with even | odd
    · have := (h'.inside (by omega)).1
      linarith
    · have := (h.inside odd).2
      linarith
  exact Nat.le_antisymm (Nat.le_of_not_lt (one h' h)) (Nat.le_of_not_lt (one h h'))

end Rounds

/-- A magnitude that is that of a rank rounds to it. -/
theorem rounds_units (rank : Nat) : Rounds rank (units rank) := by
  have before : (units (rank - 1) : ℚ) ≤ units rank := by
    exact_mod_cast units_strictMono.monotone (Nat.sub_le rank 1)
  have next : (units rank : ℚ) < units (rank + 1) := by
    exact_mod_cast units_strictMono (Nat.lt_succ_self rank)
  refine ⟨by linarith, by linarith, fun odd => ⟨?_, by linarith⟩⟩
  have strictly : (units (rank - 1) : ℚ) < units rank := by
    exact_mod_cast units_strictMono (show rank - 1 < rank by omega)
  linarith

/-- The nearest rank is any that the magnitude rounds to. -/
theorem nearestRank_eq {rank n d : Nat} (positive : 0 < d) (h : Rounds rank (n / d)) :
    nearestRank n d = rank :=
  (nearestRank_rounds n positive).unique h

/-! ## Relative errors -/

/-- The two magnitudes differ by at most `k` factors of one rounding. -/
def Within (k : Nat) (x y : ℚ) : Prop := x ≤ y * slack ^ k ∧ y ≤ x * slack ^ k

namespace Within

variable {k k' : Nat} {x x' y y' z : ℚ}

theorem refl (x : ℚ) : Within 0 x x := by simp [Within]

theorem mono (h : Within k x y) (more : k ≤ k')
    (hx : 0 ≤ x) (hy : 0 ≤ y) : Within k' x y := by
  have weaker : slack ^ k ≤ slack ^ k' := pow_le_pow_right₀ one_lt_slack.le more
  exact ⟨h.1.trans (mul_le_mul_of_nonneg_left weaker hy),
    h.2.trans (mul_le_mul_of_nonneg_left weaker hx)⟩

theorem trans (first : Within k x y) (second : Within k' y z) : Within (k + k') x z := by
  have pos := pow_pos slack_pos
  constructor
  · calc x ≤ y * slack ^ k := first.1
      _ ≤ z * slack ^ k' * slack ^ k := mul_le_mul_of_nonneg_right second.1 (pos k).le
      _ = z * slack ^ (k + k') := by ring
  · calc z ≤ y * slack ^ k' := second.2
      _ ≤ x * slack ^ k * slack ^ k' := mul_le_mul_of_nonneg_right first.2 (pos k').le
      _ = x * slack ^ (k + k') := by ring

theorem mul (h : Within k x y) (h' : Within k' x' y') (hx : 0 ≤ x) (hx' : 0 ≤ x') (hy : 0 ≤ y)
    (hy' : 0 ≤ y') : Within (k + k') (x * x') (y * y') := by
  have pos := pow_pos slack_pos
  constructor
  · calc x * x' ≤ y * slack ^ k * (y' * slack ^ k') :=
          mul_le_mul h.1 h'.1 hx' (mul_nonneg hy (pos k).le)
      _ = y * y' * slack ^ (k + k') := by ring
  · calc y * y' ≤ x * slack ^ k * (x' * slack ^ k') :=
          mul_le_mul h.2 h'.2 hy' (mul_nonneg hx (pos k).le)
      _ = x * x' * slack ^ (k + k') := by ring

theorem inv (h : Within k x y) (hx : 0 < x) (hy : 0 < y) : Within k x⁻¹ y⁻¹ := by
  have pos := pow_pos slack_pos k
  constructor
  · rw [inv_le_iff_one_le_mul₀ hx]
    have := h.2
    calc (1 : ℚ) = y⁻¹ * y := (inv_mul_cancel₀ hy.ne').symm
      _ ≤ y⁻¹ * (x * slack ^ k) := mul_le_mul_of_nonneg_left h.2 (inv_pos.2 hy).le
      _ = y⁻¹ * slack ^ k * x := by ring
  · rw [inv_le_iff_one_le_mul₀ hy]
    calc (1 : ℚ) = x⁻¹ * x := (inv_mul_cancel₀ hx.ne').symm
      _ ≤ x⁻¹ * (y * slack ^ k) := mul_le_mul_of_nonneg_left h.1 (inv_pos.2 hx).le
      _ = x⁻¹ * slack ^ k * y := by ring

theorem div (h : Within k x y) (h' : Within k' x' y') (hx : 0 ≤ x) (hx' : 0 < x') (hy : 0 ≤ y)
    (hy' : 0 < y') : Within (k + k') (x / x') (y / y') := by
  rw [div_eq_mul_inv, div_eq_mul_inv]
  exact h.mul (h'.inv hx' hy') hx (inv_pos.2 hx').le hy (inv_pos.2 hy').le

end Within

/-- The relative error of rounding where a step is at most `k` times `2^-52` of the magnitude. -/
theorem Rounds.within {rank k : Nat} {x : ℚ} (h : Rounds rank x)
    (fine : 2 ^ 52 * spacing rank ≤ k * units rank)
    (fine' : 2 ^ 52 * spacing (rank - 1) ≤ k * units (rank - 1)) (positive : 0 < rank) :
    Within k (units rank) x := by
  have bernoulli : 1 + k * (1 / 2 ^ 53) ≤ slack ^ k :=
    one_add_mul_le_pow (by norm_num : (-2 : ℚ) ≤ 1 / 2 ^ 53) k
  have before : (units rank : ℚ) = units (rank - 1) + spacing (rank - 1) := by
    have := units_succ (rank - 1)
    rw [Nat.sub_add_cancel positive] at this
    exact_mod_cast this
  have next : (units (rank + 1) : ℚ) = units rank + spacing rank := by
    exact_mod_cast units_succ rank
  have fine : (2 ^ 52 * spacing rank : ℚ) ≤ k * units rank := by exact_mod_cast fine
  have fine' : (2 ^ 52 * spacing (rank - 1) : ℚ) ≤ k * units (rank - 1) := by
    exact_mod_cast fine'
  have low := h.low
  have high := h.high
  have here : (units (rank - 1) : ℚ) ≤ x := h.between.1
  have nonneg : (0 : ℚ) ≤ units (rank - 1) := by positivity
  constructor
  · refine le_trans ?_ (mul_le_mul_of_nonneg_left bernoulli (nonneg.trans here))
    have : (k : ℚ) * units (rank - 1) ≤ k * x := mul_le_mul_of_nonneg_left here (by simp)
    linarith
  · refine le_trans ?_ (mul_le_mul_of_nonneg_left bernoulli (by positivity))
    linarith

/-- The relative error of rounding to a normal double. -/
theorem Rounds.within_of_normal {rank : Nat} {x : ℚ} (h : Rounds rank x)
    (normal : 2 ^ 52 < rank) : Within 1 (units rank) x := by
  refine h.within ?_ ?_ (by omega)
  · rw [Nat.one_mul]
    exact spacing_le_units normal.le
  · rw [Nat.one_mul]
    exact spacing_le_units (by omega)

/-- The relative error of rounding to a double that is at most four times smaller. -/
theorem Rounds.within_of_almost_normal {rank : Nat} {x : ℚ} (h : Rounds rank x)
    (large : 2 ^ 50 < rank) : Within 4 (units rank) x := by
  have fine : ∀ {rank : Nat}, 2 ^ 50 ≤ rank → 2 ^ 52 * spacing rank ≤ 4 * units rank := by
    intro rank large
    rcases Nat.lt_or_ge rank (2 ^ 52) with small | normal
    · rw [spacing, Nat.div_eq_of_lt small, units_of_le (by omega)]
      omega
    · have := spacing_le_units normal
      omega
  exact h.within (fine large.le) (fine (by omega)) (by omega)

end FormSieve.Binary64
