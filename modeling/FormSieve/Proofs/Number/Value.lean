import FormSieve.Proofs.Number.Scaling
import Mathlib.Order.Compare

/-!
# The numbers that doubles stand for

Doubles are ordered by their signed ranks, which is the order of the numbers that they stand for.
A whole number is converted to the double nearest to it, and where two doubles are equally near, to
the one of even rank. That never reverses an order, and what is a double already is left alone.
-/

namespace FormSieve

open Json

namespace Binary64

/-! ## Signs -/

/-- The magnitude of a rank under the sign of the rank, in units. -/
def signedUnits (k : Int) : Int := if k < 0 then -(units k.natAbs : Int) else units k.natAbs

theorem signedUnits_of_nonneg {k : Int} (h : 0 ≤ k) : signedUnits k = units k.natAbs :=
  if_neg (by omega)

theorem units_zero : units 0 = 0 := rfl

@[simp] theorem signedUnits_neg (k : Int) : signedUnits (-k) = -signedUnits k := by
  rcases lt_trichotomy k 0 with negative | rfl | positive
  · rw [signedUnits, signedUnits, if_neg (by omega), if_pos negative, Int.natAbs_neg, neg_neg]
  · rfl
  · rw [signedUnits, signedUnits, if_pos (by omega), if_neg (by omega), Int.natAbs_neg]

theorem signedUnits_lt_signedUnits {k l : Int} (h : k < l) : signedUnits k < signedUnits l := by
  rcases lt_or_ge k 0 with negative | nonneg
  · rw [signedUnits, if_pos negative, signedUnits]
    split
    · have less := units_strictMono (show l.natAbs < k.natAbs by omega)
      omega
    · have positive := units_pos (show 0 < k.natAbs by omega)
      omega
  · have less := units_strictMono (show k.natAbs < l.natAbs by omega)
    rw [signedUnits_of_nonneg nonneg, signedUnits_of_nonneg (by omega)]
    exact_mod_cast less

/-! ## Values -/

/-- The number that a double stands for. -/
def value (x : Binary64) : ℚ := signedUnits x.signedRank / unitsPerOne

theorem unitsPerOne_cast_pos : (0 : ℚ) < unitsPerOne := by exact_mod_cast unitsPerOne_pos

theorem value_mul_units (x : Binary64) : x.value * unitsPerOne = signedUnits x.signedRank :=
  div_mul_cancel₀ _ unitsPerOne_cast_pos.ne'

/-- The order of signed ranks is that of the numbers. -/
theorem compare_value (x y : Binary64) :
    compare x.value y.value = compare x.signedRank y.signedRank := by
  have mono : StrictMono fun k : Int => (signedUnits k : ℚ) / unitsPerOne := by
    intro k l less
    refine div_lt_div_of_pos_right ?_ unitsPerOne_cast_pos
    exact_mod_cast signedUnits_lt_signedUnits less
  rw [← cmp_eq_compare, ← cmp_eq_compare]
  exact mono.cmp_map_eq _ _

/-- No double is nearer to the number, and among those that are equally near it is the one of even
rank. -/
structure Nearest (x : Binary64) (q : ℚ) : Prop where
  closest : ∀ y : Binary64, |x.value - q| ≤ |y.value - q|
  even : ∀ y : Binary64, y.value ≠ x.value → |y.value - q| = |x.value - q| → x.rank % 2 = 0

section Midpoint

variable {a b q : ℚ} (less : b < a)
include less

/-- What is not farther from the greater of two numbers is not below the midpoint. -/
theorem add_le_two_mul_of_abs_le (near : |a - q| ≤ |b - q|) : a + b ≤ 2 * q := by
  by_contra beyond
  have beyond := lt_of_not_ge beyond
  have nearer : |b - q| < a - q := abs_lt.2 ⟨by linarith, by linarith⟩
  exact absurd near (not_le.2 (nearer.trans_le (le_abs_self _)))

/-- What is not farther from the smaller of two numbers is not above the midpoint. -/
theorem two_mul_le_add_of_abs_le (near : |b - q| ≤ |a - q|) : 2 * q ≤ a + b := by
  by_contra beyond
  have beyond := lt_of_not_ge beyond
  have nearer : |a - q| < q - b := abs_lt.2 ⟨by linarith, by linarith⟩
  rw [abs_sub_comm b] at near
  exact absurd near (not_le.2 (nearer.trans_le (le_abs_self _)))

end Midpoint

namespace Nearest

variable {x y : Binary64} {p q : ℚ}

/-- Of two numbers the greater one has not the smaller nearest double. -/
theorem value_le (h : x.Nearest p) (h' : y.Nearest q) (less : p < q) : x.value ≤ y.value := by
  by_contra reversed
  have reversed := lt_of_not_ge reversed
  -- Otherwise both numbers are on the wrong sides of the midpoint between the doubles.
  have low := add_le_two_mul_of_abs_le reversed (h.closest y)
  have high := two_mul_le_add_of_abs_le reversed (h'.closest x)
  linarith

/-- A number that a double stands for has no other nearest double. -/
theorem value_eq (h : x.Nearest y.value) : x.value = y.value := by
  have near := h.closest y
  rw [sub_self, abs_zero] at near
  exact sub_eq_zero.1 (abs_nonpos_iff.1 near)

end Nearest

/-! ## Rounding is to the nearest -/

namespace Rounds

variable {rank rank' : Nat} {x : ℚ}

/-- Another rank is not nearer, and if the rank is odd it is farther. -/
theorem nearer (h : Rounds rank x) (other : rank' ≠ rank) :
    |units rank - x| ≤ |units rank' - x| ∧
      (rank % 2 = 1 → |units rank - x| < |units rank' - x|) := by
  rcases lt_or_gt_of_ne other with before | behind
  · have upTo : (units rank' : ℚ) ≤ units (rank - 1) := by
      exact_mod_cast units_strictMono.monotone (show rank' ≤ rank - 1 by omega)
    have less : (units rank' : ℚ) < units rank := by exact_mod_cast units_strictMono before
    have distance : x - units rank' ≤ |units rank' - x| := by
      rw [abs_sub_comm]
      exact le_abs_self _
    have low := h.low
    refine ⟨(abs_le.2 ⟨by linarith, by linarith⟩).trans distance, fun odd => ?_⟩
    have low := (h.inside odd).1
    exact (abs_lt.2 ⟨by linarith, by linarith⟩).trans_le distance
  · have beyond : (units (rank + 1) : ℚ) ≤ units rank' := by
      exact_mod_cast units_strictMono.monotone (show rank + 1 ≤ rank' by omega)
    have greater : (units rank : ℚ) < units rank' := by exact_mod_cast units_strictMono behind
    have distance : units rank' - x ≤ |units rank' - x| := le_abs_self _
    have high := h.high
    refine ⟨(abs_le.2 ⟨by linarith, by linarith⟩).trans distance, fun odd => ?_⟩
    have high := (h.inside odd).2
    exact (abs_lt.2 ⟨by linarith, by linarith⟩).trans_le distance

variable {k : Int}

/-- Under the other sign a magnitude is as far away as can be. -/
theorem abs_signedUnits_sub (negative : k < 0) (nonneg : 0 ≤ x) :
    |signedUnits k - x| = units k.natAbs + x := by
  have magnitude : (0 : ℚ) ≤ units k.natAbs := Nat.cast_nonneg _
  rw [signedUnits, if_pos negative, Int.cast_neg, Int.cast_natCast, ← neg_add', abs_neg,
    abs_of_nonneg (add_nonneg magnitude nonneg)]

theorem abs_natAbs_sub_le (nonneg : 0 ≤ x) (k : Int) :
    |units k.natAbs - x| ≤ |signedUnits k - x| := by
  rcases lt_or_ge k 0 with negative | positive
  · have magnitude : (0 : ℚ) ≤ units k.natAbs := Nat.cast_nonneg _
    rw [abs_signedUnits_sub negative nonneg]
    exact abs_sub_le_iff.2 ⟨by linarith, by linarith⟩
  · rw [signedUnits_of_nonneg positive, Int.cast_natCast]

theorem closest (h : Rounds rank x) (nonneg : 0 ≤ x) (k : Int) :
    |units rank - x| ≤ |signedUnits k - x| := by
  refine le_trans ?_ (abs_natAbs_sub_le nonneg k)
  by_cases same : k.natAbs = rank
  · rw [same]
  · exact (h.nearer same).1

theorem even_of_tie (h : Rounds rank x) (nonneg : 0 ≤ x) (other : signedUnits k ≠ units rank)
    (tie : |signedUnits k - x| = |units rank - x|) : rank % 2 = 0 := by
  by_cases same : k.natAbs = rank
  · -- The two have the same magnitude, so they are on either side of zero, and that is `x`.
    have negative : k < 0 := by
      by_contra positive
      exact other (same ▸ signedUnits_of_nonneg (not_lt.1 positive))
    rw [abs_signedUnits_sub negative nonneg, same] at tie
    have zero : x ≤ units 0 := by
      rw [units_zero, Nat.cast_zero]
      have magnitude : units rank ≠ 0 := by
        intro zero
        rw [signedUnits, if_pos negative, same, zero] at other
        exact other rfl
      have positive : (0 : ℚ) < units rank := by exact_mod_cast Nat.pos_of_ne_zero magnitude
      rcases abs_cases (units rank - x) with ⟨dist, _⟩ | ⟨dist, _⟩ <;> linarith
    have := h.le_of_le zero
    omega
  · by_contra odd
    have farther := (h.nearer same).2 (by omega)
    exact absurd (tie ▸ abs_natAbs_sub_le nonneg k) (not_le.2 farther)

end Rounds

/-- The signed rank as seen from one sign or the other. -/
def rankFrom (negative : Bool) (x : Binary64) : Int :=
  if negative then -x.signedRank else x.signedRank

theorem rankFrom_self (x : Binary64) : rankFrom x.negative x = x.rank := by
  cases sign : x.negative <;> simp [rankFrom, signedRank, sign]

theorem signedUnits_rankFrom_self (x : Binary64) :
    signedUnits (rankFrom x.negative x) = units x.rank := by
  rw [rankFrom_self, signedUnits_of_nonneg (Int.natCast_nonneg _), Int.natAbs_natCast]

theorem abs_value_sub (negative : Bool) (x : Binary64) (q : ℚ) :
    |x.value - if negative then -q else q| * unitsPerOne =
      |signedUnits (rankFrom negative x) - q * unitsPerOne| := by
  rw [← abs_of_pos unitsPerOne_cast_pos, ← abs_mul, abs_of_pos unitsPerOne_cast_pos, sub_mul,
    value_mul_units]
  cases negative with
  | false => rfl
  | true =>
      rw [← abs_neg, rankFrom, if_pos rfl, if_pos rfl, signedUnits_neg, Int.cast_neg]
      congr 1
      ring

theorem value_eq_iff (negative : Bool) (x y : Binary64) :
    x.value = y.value ↔
      signedUnits (rankFrom negative x) = signedUnits (rankFrom negative y) := by
  rw [← mul_left_inj' unitsPerOne_cast_pos.ne', value_mul_units, value_mul_units]
  cases negative <;> simp [rankFrom]

theorem abs_value_sub_own (x : Binary64) (q : ℚ) :
    |x.value - if x.negative then -q else q| * unitsPerOne =
      |units x.rank - q * unitsPerOne| := by
  rw [abs_value_sub, signedUnits_rankFrom_self, Int.cast_natCast]

/-- The nearest double is found by rounding the magnitude. -/
theorem Rounds.nearest {x : Binary64} {q : ℚ} (nonneg : 0 ≤ q)
    (h : Rounds x.rank (q * unitsPerOne)) : x.Nearest (if x.negative then -q else q) := by
  have magnitude : 0 ≤ q * unitsPerOne := mul_nonneg nonneg unitsPerOne_cast_pos.le
  constructor
  · intro y
    refine le_of_mul_le_mul_right ?_ unitsPerOne_cast_pos
    rw [abs_value_sub_own, abs_value_sub]
    exact h.closest magnitude _
  · intro y other tie
    rw [Ne, value_eq_iff x.negative, signedUnits_rankFrom_self] at other
    refine h.even_of_tie magnitude other ?_
    rw [← abs_value_sub_own, ← tie, abs_value_sub]

/-! ## Whole numbers -/

theorem units_of_least (shift : Nat) :
    units (shift * 2 ^ 52 + 2 ^ 52) = 2 ^ 52 * 2 ^ shift :=
  units_of_parts (.inr (Nat.le_refl _)) (by decide)

/-- Whole numbers of 64 bits are far from the largest doubles. -/
theorem rankOfNat_lt_infinityRank {n : Nat} (h : n ≤ 2 ^ 64) : rankOfNat n < infinityRank := by
  have top : units (rankOfNat (1 * 2 ^ 64)) = 2 ^ 64 * unitsPerOne := by
    rw [units_rankOfNat (by decide), Nat.one_mul]
  have below : rankOfNat n ≤ rankOfNat (1 * 2 ^ 64) := by
    refine (rankOfNat_rounds n).le_of_le ?_
    rw [top]
    exact_mod_cast Nat.mul_le_mul_right unitsPerOne h
  obtain ⟨k, small, one⟩ := exists_unitsPerOne
  have finite : (64 + k) * 2 ^ 52 + 2 ^ 52 ≤ infinityRank := by
    rw [infinityRank]
    omega
  refine lt_of_lt_of_le (lt_of_le_of_lt below (units_strictMono.lt_iff_lt.1 ?_)) finite
  rw [top, units_of_least, one, ← pow_add, ← pow_add]
  exact Nat.pow_lt_pow_right (by decide) (by omega)

/-- The double that a whole number is converted to. -/
def ofInt (n : Int) (h : n.natAbs ≤ 2 ^ 64) : Binary64 :=
  ⟨n < 0, rankOfNat n.natAbs, rankOfNat_lt_infinityRank h⟩

theorem cast_eq_ite (n : Int) :
    (n : ℚ) = if decide (n < 0) = true then -(n.natAbs : ℚ) else n.natAbs := by
  rw [Nat.cast_natAbs]
  rcases lt_or_ge n 0 with negative | nonneg
  · rw [if_pos (decide_eq_true negative), abs_of_neg negative, Int.cast_neg, neg_neg]
  · rw [if_neg (by simpa using nonneg), abs_of_nonneg nonneg]

section OfInt

variable {n : Int} {h : n.natAbs ≤ 2 ^ 64}

theorem ofInt_nearest : (ofInt n h).Nearest n := by
  have rounds : Rounds (ofInt n h).rank (n.natAbs * unitsPerOne) := by
    exact_mod_cast rankOfNat_rounds n.natAbs
  rw [cast_eq_ite n]
  exact rounds.nearest (Nat.cast_nonneg _)

/-- A whole number whose magnitude is that of a double is converted to itself. -/
theorem value_ofInt (whole : units (rankOfNat n.natAbs) = n.natAbs * unitsPerOne) :
    (ofInt n h).value = n := by
  have distance := abs_value_sub_own (ofInt n h) n.natAbs
  have difference : (units (ofInt n h).rank - n.natAbs * unitsPerOne : ℚ) = 0 :=
    sub_eq_zero.2 (by exact_mod_cast whole)
  rw [difference, abs_zero, mul_eq_zero, or_iff_left unitsPerOne_cast_pos.ne', abs_eq_zero,
    sub_eq_zero] at distance
  rw [distance, cast_eq_ite n]
  rfl

end OfInt

/-- So many binary digits followed by zeros make a double. -/
theorem exists_value_eq {digits : Int} (few : digits.natAbs ≤ 2 ^ 53) {shift : Nat}
    (short : shift ≤ 11) : ∃ x : Binary64, x.value = (digits * 2 ^ shift : Int) := by
  have magnitude : (digits * 2 ^ shift).natAbs = digits.natAbs * 2 ^ shift := by
    rw [Int.natAbs_mul, Int.natAbs_pow]
    rfl
  have bounded : (digits * 2 ^ shift).natAbs ≤ 2 ^ 64 := by
    rw [magnitude]
    calc digits.natAbs * 2 ^ shift ≤ 2 ^ 53 * 2 ^ 11 :=
          Nat.mul_le_mul few (Nat.pow_le_pow_right (by decide) short)
      _ = 2 ^ 64 := by decide
  refine ⟨ofInt (digits * 2 ^ shift) bounded, value_ofInt ?_⟩
  rw [magnitude]
  exact units_rankOfNat few shift

/-- A whole number of 53 binary digits is a double itself. -/
theorem Nearest.value_eq_of_small {x : Binary64} {n : Int} (h : x.Nearest n)
    (small : n.natAbs ≤ 2 ^ 53) : x.value = n := by
  obtain ⟨y, same⟩ := exists_value_eq small (Nat.zero_le 11)
  rw [pow_zero, mul_one] at same
  rw [← same] at h ⊢
  exact h.value_eq

/-- The multiples of 2048 are doubles, so none is farther away than half of that. -/
theorem Nearest.abs_sub_le {x : Binary64} {n : Int} (h : x.Nearest n)
    (fits : n.natAbs ≤ 2 ^ 64) : |x.value - n| ≤ 1024 := by
  obtain ⟨digits, few, near⟩ : ∃ digits : Int, digits.natAbs ≤ 2 ^ 53 ∧
      |digits * 2 ^ 11 - n| ≤ 1024 := by
    refine ⟨(n + 1024) / 2 ^ 11, by omega, ?_⟩
    rw [abs_le]
    omega
  obtain ⟨y, same⟩ := exists_value_eq few (Nat.le_refl 11)
  refine (h.closest y).trans ?_
  rw [same]
  exact_mod_cast near

/-! ## The order of whole numbers -/

section Order

variable {m n : Int} {hm : m.natAbs ≤ 2 ^ 64} {hn : n.natAbs ≤ 2 ^ 64}

/-- Of two whole numbers the greater one has not the smaller double. -/
theorem lt_of_value_lt (less : (ofInt m hm).value < (ofInt n hn).value) : m < n := by
  rcases lt_trichotomy m n with before | rfl | behind
  · exact before
  · exact absurd less (lt_irrefl _)
  · have behind : (n : ℚ) < m := by exact_mod_cast behind
    exact absurd less (not_lt.2 (ofInt_nearest.value_le ofInt_nearest behind))

/-- Whole numbers of 53 binary digits are in the order of their doubles. -/
theorem compare_value_ofInt_of_small (small : m.natAbs ≤ 2 ^ 53) (small' : n.natAbs ≤ 2 ^ 53) :
    compare (ofInt m hm).value (ofInt n hn).value = compare m n := by
  rw [ofInt_nearest.value_eq_of_small small, ofInt_nearest.value_eq_of_small small',
    ← cmp_eq_compare, ← cmp_eq_compare]
  exact Int.cast_strictMono.cmp_map_eq m n

/-- Otherwise the only fault is that different numbers have one double, which is close to both. -/
theorem compare_value_ofInt_eq_of_ne
    (fault : compare (ofInt m hm).value (ofInt n hn).value ≠ compare m n) :
    compare (ofInt m hm).value (ofInt n hn).value = .eq ∧ m ≠ n ∧ |m - n| ≤ 2048 := by
  cases order : compare (ofInt m hm).value (ofInt n hn).value with
  | lt =>
      have less := lt_of_value_lt (compare_lt_iff_lt.1 order)
      exact absurd (order.trans (compare_lt_iff_lt.2 less).symm) fault
  | gt =>
      have greater := lt_of_value_lt (compare_gt_iff_gt.1 order)
      exact absurd (order.trans (compare_gt_iff_gt.2 greater).symm) fault
  | eq =>
      have same := compare_eq_iff_eq.1 order
      refine ⟨rfl, fun equal => fault (order.trans (compare_eq_iff_eq.2 equal).symm), ?_⟩
      have near := (ofInt_nearest (h := hm)).abs_sub_le hm
      have near' := (ofInt_nearest (h := hn)).abs_sub_le hn
      rw [same, abs_sub_comm] at near
      have close : |(m : ℚ) - n| ≤ 2048 := by
        calc |(m : ℚ) - n| ≤ |m - (ofInt n hn).value| + |(ofInt n hn).value - n| :=
              abs_sub_le _ _ _
          _ ≤ 1024 + 1024 := add_le_add near near'
          _ = 2048 := by norm_num
      exact_mod_cast close

end Order

end Binary64

namespace Json.Number

theorem natAbs_le_of_fits {n : Int} (fits : -2 ^ 63 ≤ n ∧ n < 2 ^ 64) : n.natAbs ≤ 2 ^ 64 := by
  omega

/-- The double that a number is compared as. -/
def double : Number → Binary64
  | .integer n fits => .ofInt n (natAbs_le_of_fits fits)
  | .float x => x

theorem signedRank_double (n : Number) : n.double.signedRank = n.signedRank := by
  cases n with
  | integer n fits => simp [double, Binary64.ofInt, Binary64.signedRank, signedRank]
  | float x => rfl

/-- Numbers are compared as the doubles that they are converted to. -/
theorem compare_signedRank (m n : Number) :
    compare m.signedRank n.signedRank = compare m.double.value n.double.value := by
  rw [Binary64.compare_value, signedRank_double, signedRank_double]

end Json.Number

end FormSieve
