import FormSieve.Proofs.Json.FloatNumeral
import FormSieve.Proofs.Json.Printing
import FormSieve.Proofs.Number.Scaling
import FormSieve.Proofs.Number.Shortest

/-!
# Doubles that are written and read again

The decimal that is written for a double rounds to it, but it is read with up to four roundings
instead of one. What is read is a finite double of the same sign at most eight ranks away, zero
only for zero, and the same double wherever the reader gets by with a single rounding.
-/

namespace FormSieve

open Json

namespace Binary64

/-- The decimal that is read from what is written for a rank. -/
def written (rank : Nat) : Decimal :=
  if rank = 0 then ⟨0, -1⟩ else floatLayout.written (shortest rank)

/-- The rank that is read from what is written for a rank. -/
def rereadRank (rank : Nat) : Nat := scaledRank (written rank).digits (written rank).exponent

/-- The decimal that is read is the one that is written. -/
theorem scaledUnits_written (d : Decimal) :
    scaledUnits (floatLayout.written d).digits (floatLayout.written d).exponent =
      scaledUnits d.digits d.exponent := by
  rw [FloatLayout.written]
  split
  · next whole =>
    obtain ⟨k, up⟩ := Int.eq_ofNat_of_zero_le whole.2.2
    rw [up, Int.toNat_natCast, scaledUnits, scaledUnits, zpow_natCast]
    push_cast
    rw [zpow_neg_one, mul_inv_cancel_right₀ (by norm_num)]
  · rfl

section Rank

variable {rank : Nat} (positive : 0 < rank)
include positive

theorem written_of_pos : written rank = floatLayout.written (shortest rank) :=
  if_neg positive.ne'

theorem rounds_written :
    Rounds rank (scaledUnits (written rank).digits (written rank).exponent) := by
  rw [written_of_pos positive, scaledUnits_written]
  exact (shortest_spec positive).1

theorem digits_written_pos : 0 < (written rank).digits := by
  have digitsPos := (shortest_spec positive).2.1
  rw [written_of_pos positive, FloatLayout.written]
  split
  · exact Nat.mul_pos (Nat.mul_pos digitsPos (Nat.pow_pos (by decide))) (by decide)
  · exact digitsPos

variable (finite : rank < infinityRank)
include finite

theorem exponent_written : -616 ≤ (written rank).exponent ∧ (written rank).exponent ≤ 308 := by
  have low := (shortest_spec positive).2.2.2
  have high := exponent_shortest_le positive finite
  rw [written_of_pos positive, FloatLayout.written]
  split
  · exact ⟨show (-616 : Int) ≤ -1 by decide, show (-1 : Int) ≤ 308 by decide⟩
  · exact ⟨by omega, high⟩

/-- What is read is at most eight ranks away. -/
theorem rereadRank_near : rank ≤ rereadRank rank + 8 ∧ rereadRank rank ≤ rank + 8 := by
  obtain ⟨low, high⟩ := exponent_written positive finite
  have between := (rounds_written positive).between
  have digitsPos := digits_written_pos positive
  have below := le_scaledRank_of_le digitsPos low high between.1
  have above := scaledRank_le_of_le digitsPos low high between.2
  rw [rereadRank]
  omega

end Rank

/-- Near zero, what is read is seen by reading it. -/
theorem rereadRank_small : ∀ rank < 9, 0 < rank → 0 < rereadRank rank := by decide +kernel

/-- So is it near the largest doubles. -/
theorem rereadRank_large : ∀ k < 9, 0 < k → rereadRank (infinityRank - k) < infinityRank := by
  decide +kernel

theorem rereadRank_zero : rereadRank 0 = 0 := by decide +kernel

theorem rereadRank_pos {rank : Nat} (positive : 0 < rank) (finite : rank < infinityRank) :
    0 < rereadRank rank := by
  rcases Nat.lt_or_ge rank 9 with small | large
  · exact rereadRank_small rank small positive
  · have near := (rereadRank_near positive finite).1
    omega

theorem rereadRank_lt {rank : Nat} (finite : rank < infinityRank) :
    rereadRank rank < infinityRank := by
  rcases Nat.eq_zero_or_pos rank with rfl | positive
  · rw [rereadRank_zero]
    exact finite
  · rcases Nat.lt_or_ge rank (infinityRank - 8) with small | large
    · have near := (rereadRank_near positive finite).2
      omega
    · have top := rereadRank_large (infinityRank - rank) (by omega) (by omega)
      rwa [Nat.sub_sub_self finite.le] at top

/-- The double that is read from what is written for a double. -/
def reread (x : Binary64) : Binary64 := ⟨x.negative, rereadRank x.rank, rereadRank_lt x.finite⟩

theorem reread_rank_eq_zero_iff (x : Binary64) : x.reread.rank = 0 ↔ x.rank = 0 := by
  constructor
  · intro zero
    by_contra nonzero
    exact (rereadRank_pos (Nat.pos_of_ne_zero nonzero) x.finite).ne' zero
  · intro zero
    change rereadRank x.rank = 0
    rw [zero, rereadRank_zero]

/-- What is read is at most eight ranks away. -/
theorem reread_near (x : Binary64) :
    x.rank ≤ x.reread.rank + 8 ∧ x.reread.rank ≤ x.rank + 8 := by
  rcases Nat.eq_zero_or_pos x.rank with zero | positive
  · have again := (reread_rank_eq_zero_iff x).2 zero
    omega
  · exact rereadRank_near positive x.finite

/-- A double is read again if one rounding is enough for its digits. -/
theorem reread_of_exact {x : Binary64} (few : (written x.rank).digits ≤ 2 ^ 53)
    (near : (written x.rank).exponent.natAbs ≤ 22) : x.reread = x := by
  obtain ⟨negative, rank, finite⟩ := x
  rcases Nat.eq_zero_or_pos rank with rfl | positive
  · simp only [reread, rereadRank_zero]
  · have same : rereadRank rank = rank := scaledRank_of_exact few near (rounds_written positive)
    simp only [reread, same]

end Binary64

namespace Json

/-- The digits of a double, without its sign. -/
theorem number_magnitude (x : Binary64) (negative : Bool) :
    number negative (Text.encode
        (if x.rank = 0 then ['0', '.', '0'] else floatLayout.print (Binary64.shortest x.rank))) =
      floatOfParts negative (Binary64.written x.rank).digits (Binary64.written x.rank).exponent
        [] := by
  split
  · next zero =>
    have read : number negative (Text.encode ['0', '.', '0']) = _ :=
      number_fraction negative (by simp [AllDigits]) (by simp) (by decide)
    exact read.trans (by rw [Binary64.written, if_pos zero]; rfl)
  · next nonzero =>
    have positive := Nat.pos_of_ne_zero nonzero
    obtain ⟨-, digits, few, low⟩ := Binary64.shortest_spec positive
    have high := Binary64.exponent_shortest_le positive x.finite
    have read := number_print digits few (by omega) negative
    exact read.trans (by rw [Binary64.written_of_pos positive])

/-- What is written for a double is a spelling of the one that is read. -/
theorem numberSpelling_float (x : Binary64) :
    NumberSpelling (.float x.reread) (Text.bytes (printFloat x)) := by
  have read : number x.negative _ = .ok (.float x.reread, []) :=
    (number_magnitude x x.negative).trans <| by
      have finite := Binary64.rereadRank_lt x.finite
      rw [Binary64.rereadRank] at finite
      rw [floatOfParts, Binary64.ofRank?, dif_pos finite]
      rfl
  rw [printFloat, Text.bytes_ofList_eq_encode]
  cases sign : x.negative with
  | true =>
      rw [sign] at read
      exact .negative read
  | false =>
      rw [sign] at read
      exact .positive read

end Json

end FormSieve
