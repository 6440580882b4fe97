import FormSieve.Number.Shortest
import FormSieve.Proofs.Number.Nearest
import Mathlib.Tactic.FieldSimp

/-!
# The shortest decimal rounds to its double

The search for the shortest decimal of a double ends with seventeen digits at the latest: the
grid of the decimals with that many digits is so fine that the one nearest to the double is less
than half a step of the doubles away.
-/

namespace FormSieve

namespace Binary64

theorem roundsTo_iff (rank point : Nat) :
    roundsTo rank point = true ↔ Rounds rank ((point : ℕ) / (10 ^ decimalScale : ℕ)) := by
  rw [rounds_div_iff (Nat.pow_pos (by decide)), roundsTo]
  rcases Nat.mod_two_eq_zero_or_one rank with even | odd
  · simp [even]
  · simp only [odd, one_ne_zero, if_false, Bool.and_eq_true, decide_eq_true_eq, true_implies]
    omega

/-- A point of the grid with that many places left. -/
theorem scaledUnits_grid (k : Nat) {places length : Nat} (h : places ≤ length) :
    ((k * (10 ^ (length - places) * unitsPerOne) : ℕ) : ℚ) / (10 ^ decimalScale : ℕ) =
      scaledUnits k ((length : Int) - places - decimalScale) := by
  have split : ((length : Int) - places - decimalScale) =
      ((length - places : ℕ) : Int) - (decimalScale : ℕ) := by omega
  rw [scaledUnits, split, zpow_sub₀ (by decide), zpow_natCast, zpow_natCast]
  push_cast
  ring

/-- What is off by less than half a step of the doubles rounds to the double. -/
theorem Rounds.of_close {rank : Nat} {x step : ℚ} (positive : 0 < rank)
    (fine : (2 ^ 53 + 1) * step < units rank) (below : 2 * (units rank - x) ≤ step)
    (above : 2 * (x - units rank) ≤ step) : Rounds rank x := by
  have before : (units rank : ℚ) = units (rank - 1) + spacing (rank - 1) := by
    have := units_succ (rank - 1)
    rw [Nat.sub_add_cancel positive] at this
    exact_mod_cast this
  have next : (units (rank + 1) : ℚ) = units rank + spacing rank := by
    exact_mod_cast units_succ rank
  have wide : (units rank : ℚ) < 2 ^ 53 * spacing rank := by exact_mod_cast units_lt_spacing rank
  have wide' : (units (rank - 1) : ℚ) < 2 ^ 53 * spacing (rank - 1) := by
    exact_mod_cast units_lt_spacing (rank - 1)
  have low : (units (rank - 1) + units rank : ℚ) < 2 * x := by linarith
  have high : 2 * x < (units rank + units (rank + 1) : ℚ) := by linarith
  exact ⟨low.le, high.le, fun _ => ⟨low, high⟩⟩

/-! ## The grids -/

section Search

variable (rank value length : Nat)

/-- A point of the grid with `places` digits next to the value, from which the value is read. -/
structure OnGrid (places digits : Nat) : Prop where
  few : 1 ≤ places ∧ places ≤ 17
  next : digits = value / (10 ^ (length - places) * unitsPerOne) ∨
    digits = value / (10 ^ (length - places) * unitsPerOne) + 1
  rounds : roundsTo rank (digits * (10 ^ (length - places) * unitsPerOne)) = true

/-- If one of the last grid's points is good, the search ends at a good one. -/
theorem shortestFrom_onGrid (last : ∃ digits, OnGrid rank value length 17 digits) (left : Nat)
    {count : Nat} (start : 1 ≤ count) (few : left + count = 18) (more : count ≤ 17) :
    ∃ places digits, OnGrid rank value length places digits ∧
      shortestFrom rank value length left count =
        ⟨digits, (length : Int) - places - decimalScale⟩ := by
  induction left generalizing count with
  | zero => omega
  | succ left ih =>
      have found : ∀ {digits : Nat},
          digits = value / (10 ^ (length - count) * unitsPerOne) ∨
            digits = value / (10 ^ (length - count) * unitsPerOne) + 1 →
          roundsTo rank (digits * (10 ^ (length - count) * unitsPerOne)) = true →
            ∃ places digits', OnGrid rank value length places digits' ∧
              (⟨digits, (length : Int) - count - decimalScale⟩ : Decimal) =
                ⟨digits', (length : Int) - places - decimalScale⟩ :=
        fun next rounds => ⟨count, _, ⟨⟨start, more⟩, next, rounds⟩, rfl⟩
      rw [shortestFrom]
      split_ifs with both nearer low high
      · exact found (.inl rfl) (Bool.and_eq_true _ _ ▸ both).1
      · exact found (.inr rfl) (Bool.and_eq_true _ _ ▸ both).2
      · exact found (.inl rfl) low
      · exact found (.inr rfl) high
      · rcases Nat.lt_or_ge count 17 with more | end'
        · exact ih (by omega) (by omega) (by omega)
        · obtain rfl : count = 17 := by omega
          obtain ⟨digits, -, rfl | rfl, rounds⟩ := last
          · exact absurd rounds low
          · exact absurd rounds high

end Search

/-- One of the grid points next to a value is at most half a step away. -/
theorem exists_close (value : Nat) {step : Nat} (positive : 0 < step) :
    ∃ digits, (digits = value / step ∨ digits = value / step + 1) ∧
      2 * value ≤ 2 * (digits * step) + step ∧ 2 * (digits * step) ≤ 2 * value + step := by
  have parts := Nat.div_add_mod' value step
  have small := Nat.mod_lt value positive
  have following : (value / step + 1) * step = value / step * step + step := Nat.succ_mul _ _
  rcases Nat.le_total (2 * (value % step)) step with low | high
  · exact ⟨_, .inl rfl, by omega, by omega⟩
  · exact ⟨_, .inr rfl, by omega, by omega⟩

section Last

variable {rank length : Nat} (positive : 0 < rank)
include positive

/-- A point that is at most half a step of a fine grid away is good. -/
theorem roundsTo_of_close {step digits : Nat}
    (fine : 10 ^ 16 * step ≤ units rank * 10 ^ decimalScale) (stepPos : 0 < step)
    (below : 2 * (units rank * 10 ^ decimalScale) ≤ 2 * (digits * step) + step)
    (above : 2 * (digits * step) ≤ 2 * (units rank * 10 ^ decimalScale) + step) :
    roundsTo rank (digits * step) = true := by
  have pos : (0 : ℚ) < (10 ^ decimalScale : ℕ) := by exact_mod_cast Nat.pow_pos (by decide)
  rw [roundsTo_iff]
  generalize 10 ^ decimalScale = scale at *
  have fine : (10 ^ 16 * step : ℚ) ≤ units rank * scale := by exact_mod_cast fine
  have stepPos : (0 : ℚ) < step := by exact_mod_cast stepPos
  have below : (2 * (units rank * scale) : ℚ) ≤ 2 * (digits * step) + step := by
    exact_mod_cast below
  have above : (2 * (digits * step) : ℚ) ≤ 2 * (units rank * scale) + step := by
    exact_mod_cast above
  have same : (units rank : ℚ) = units rank * scale / scale := by field_simp
  refine Rounds.of_close positive (?_ : (2 ^ 53 + 1) * (step / scale : ℚ) < _) ?_ ?_
  · rw [same, ← mul_div_assoc]
    exact div_lt_div_of_pos_right (by linarith) pos
  · rw [same, Nat.cast_mul, ← sub_div, ← mul_div_assoc]
    exact div_le_div_of_nonneg_right (by linarith) pos.le
  · rw [same, Nat.cast_mul, ← sub_div, ← mul_div_assoc]
    exact div_le_div_of_nonneg_right (by linarith) pos.le

/-- One of the last grid's points is good. -/
theorem exists_onGrid_last (long : 17 ≤ length)
    (large : 10 ^ (length - 1) * unitsPerOne ≤ units rank * 10 ^ decimalScale) :
    ∃ digits, OnGrid rank (units rank * 10 ^ decimalScale) length 17 digits := by
  have stepPos : 0 < 10 ^ (length - 17) * unitsPerOne :=
    Nat.mul_pos (Nat.pow_pos (by decide)) unitsPerOne_pos
  have fine : 10 ^ 16 * (10 ^ (length - 17) * unitsPerOne) ≤ units rank * 10 ^ decimalScale := by
    have split : length - 1 = 16 + (length - 17) := by omega
    rw [split, pow_add, Nat.mul_assoc] at large
    exact large
  obtain ⟨digits, next, below, above⟩ := exists_close (units rank * 10 ^ decimalScale) stepPos
  exact ⟨digits, by decide, next, roundsTo_of_close positive fine stepPos below above⟩

end Last

theorem scale_large : 10 ^ 76 * unitsPerOne ≤ 10 ^ decimalScale := by decide +kernel

/-- How many digits the whole part of a scaled magnitude has. -/
theorem length_bounds {rank : Nat} (positive : 0 < rank) {length : Nat}
    (h : (Nat.toDigits 10 (units rank * 10 ^ decimalScale / unitsPerOne)).length = length) :
    77 ≤ length ∧ 10 ^ (length - 1) * unitsPerOne ≤ units rank * 10 ^ decimalScale ∧
      units rank * 10 ^ decimalScale < 10 ^ length * unitsPerOne := by
  have digits : ∀ k, 0 < k →
      (length ≤ k ↔ units rank * 10 ^ decimalScale < 10 ^ k * unitsPerOne) := fun k positive' => by
    rw [← h, Nat.length_toDigits_le_iff (by decide) positive',
      Nat.div_lt_iff_lt_mul unitsPerOne_pos]
  have long : 77 ≤ length := by
    by_contra short
    have few := (digits 76 (by decide)).1 (by omega)
    have large : 10 ^ decimalScale ≤ units rank * 10 ^ decimalScale :=
      Nat.le_mul_of_pos_left _ (units_pos positive)
    exact absurd (scale_large.trans large) (Nat.not_le.2 few)
  refine ⟨long, ?_, (digits length (by omega)).1 (Nat.le_refl _)⟩
  rw [← Nat.not_lt, ← digits (length - 1) (by omega)]
  omega

theorem OnGrid.digits_bounds {rank value length places digits : Nat}
    (h : OnGrid rank value length places digits) (long : 17 ≤ length)
    (large : 10 ^ (length - 1) * unitsPerOne ≤ value) (small : value < 10 ^ length * unitsPerOne) :
    0 < digits ∧ digits ≤ 10 ^ 17 := by
  obtain ⟨⟨placesPos, few⟩, next, -⟩ := h
  have step : 0 < 10 ^ (length - places) * unitsPerOne :=
    Nat.mul_pos (Nat.pow_pos (by decide)) unitsPerOne_pos
  have reached : 1 ≤ value / (10 ^ (length - places) * unitsPerOne) := by
    rw [Nat.le_div_iff_mul_le step, Nat.one_mul]
    refine Nat.le_trans (Nat.mul_le_mul_right _ ?_) large
    exact Nat.pow_le_pow_right (by decide) (by omega)
  have below : value / (10 ^ (length - places) * unitsPerOne) < 10 ^ places := by
    rw [Nat.div_lt_iff_lt_mul step, ← Nat.mul_assoc, ← pow_add, Nat.add_sub_cancel' (by omega)]
    exact small
  have most : 10 ^ places ≤ 10 ^ 17 := Nat.pow_le_pow_right (by decide) few
  omega

/-- A zero less at the end of the digits does not change the number. -/
theorem scaledUnits_div_ten {digits : Nat} (exponent : Int) (zero : digits % 10 = 0) :
    scaledUnits (digits / 10) (exponent + 1) = scaledUnits digits exponent := by
  obtain ⟨k, rfl⟩ := Nat.dvd_of_mod_eq_zero zero
  rw [Nat.mul_div_cancel_left k (by decide), scaledUnits, scaledUnits, zpow_add_one₀ (by decide)]
  push_cast
  ring

end Binary64

namespace Decimal

open Binary64

theorem trimZeros_spec (fuel : Nat) (d : Decimal) (positive : 0 < d.digits) :
    scaledUnits (d.trimZeros fuel).digits (d.trimZeros fuel).exponent =
        scaledUnits d.digits d.exponent ∧
      0 < (d.trimZeros fuel).digits ∧ (d.trimZeros fuel).digits ≤ d.digits ∧
      d.exponent ≤ (d.trimZeros fuel).exponent := by
  induction fuel generalizing d with
  | zero => exact ⟨rfl, positive, Nat.le_refl _, Int.le_refl _⟩
  | succ fuel ih =>
      rw [trimZeros]
      split
      · next zero =>
        obtain ⟨same, positive', fewer, more⟩ :=
          ih ⟨d.digits / 10, d.exponent + 1⟩ (by dsimp; omega)
        refine ⟨same.trans (scaledUnits_div_ten _ zero.2), positive', ?_, ?_⟩
        · exact Nat.le_trans fewer (Nat.div_le_self _ _)
        · dsimp only at more
          omega
      · exact ⟨rfl, positive, Nat.le_refl _, Int.le_refl _⟩

end Decimal

namespace Binary64

/-- The shortest decimal rounds to its rank. It has at most seventeen digits. -/
theorem shortest_spec {rank : Nat} (positive : 0 < rank) :
    Rounds rank (scaledUnits (shortest rank).digits (shortest rank).exponent) ∧
      0 < (shortest rank).digits ∧ (shortest rank).digits ≤ 10 ^ 17 ∧
      -340 ≤ (shortest rank).exponent := by
  obtain ⟨long, large, small⟩ := length_bounds positive rfl
  have last := exists_onGrid_last positive (by omega) large
  obtain ⟨places, digits, grid, found⟩ :=
    shortestFrom_onGrid rank _ _ last 17 (Nat.le_refl 1) (by decide) (by decide)
  obtain ⟨digitsPos, few⟩ := grid.digits_bounds (by omega) large small
  have rounds := (roundsTo_iff _ _).1 grid.rounds
  have places := grid.few
  rw [scaledUnits_grid _ (by omega)] at rounds
  obtain ⟨same, trimmedPos, fewer, more⟩ := Decimal.trimZeros_spec 20 ⟨digits, _⟩ digitsPos
  rw [shortest, found]
  refine ⟨same ▸ rounds, trimmedPos, fewer.trans few, le_trans ?_ more⟩
  have scale : decimalScale = 400 := rfl
  dsimp only
  omega

theorem units_infinityRank_lt : units infinityRank < 10 ^ 309 * unitsPerOne := by decide +kernel

/-- The shortest decimal of a finite double has an exponent of at most 308. -/
theorem exponent_shortest_le {rank : Nat} (positive : 0 < rank) (finite : rank < infinityRank) :
    (shortest rank).exponent ≤ 308 := by
  obtain ⟨rounds, digitsPos, -, -⟩ := shortest_spec positive
  have top : (units (rank + 1) : ℚ) < 10 ^ 309 * unitsPerOne := by
    have below := (units_strictMono.monotone finite).trans_lt units_infinityRank_lt
    have cast : (units (rank + 1) : ℚ) < (10 ^ 309 * unitsPerOne : ℕ) := Nat.cast_lt.2 below
    simpa only [Nat.cast_mul, Nat.cast_pow, Nat.cast_ofNat] using cast
  by_contra large
  have power : (10 ^ 309 : ℚ) ≤ 10 ^ (shortest rank).exponent := by
    rw [← zpow_natCast]
    exact zpow_le_zpow_right₀ (by norm_num) (by push_cast; omega)
  have digits : (1 : ℚ) ≤ (shortest rank).digits := by exact_mod_cast digitsPos
  have beyond : (10 ^ 309 * unitsPerOne : ℚ) ≤
      scaledUnits (shortest rank).digits (shortest rank).exponent :=
    mul_le_mul_of_nonneg_right
      (power.trans (le_mul_of_one_le_left (power.trans' (by positivity)) digits))
      (Nat.cast_nonneg _)
  exact absurd (beyond.trans rounds.between.2) (not_le.2 top)

end Binary64

end FormSieve
