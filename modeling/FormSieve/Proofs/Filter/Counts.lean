import FormSieve.Proofs.Filter.Composition
import Mathlib.Data.Rat.Floor

/-!
# What filtering does to the counts

The counts of a filtered page are those of unbounded arithmetic: the total loses the submissions
that were dropped, down to zero, and the number of pages is the least that is enough for the total.
No step of the arithmetic leaves the numbers of 64 bits, however large the total and the limit are.
-/

namespace FormSieve

namespace PageLimit

variable (limit : PageLimit) (n : UInt64)

theorem value_pos : 0 < limit.value.toNat :=
  UInt64.lt_iff_toNat_lt.1 limit.positive

/-- Where a page is left over, the full pages are not as many as there are numbers: the limit is
then greater than one. -/
theorem fullPages_succ_lt (left : 0 < n % limit.value) :
    (n / limit.value).toNat + 1 < 2 ^ 64 := by
  have rest : 0 < n.toNat % limit.value.toNat := by
    simpa [UInt64.lt_iff_toNat_lt] using left
  have many : limit.value.toNat ≠ 1 := by
    intro one
    rw [one, Nat.mod_one] at rest
    exact absurd rest (Nat.lt_irrefl 0)
  have positive := limit.value_pos
  have half : n.toNat / limit.value.toNat ≤ n.toNat / 2 :=
    Nat.div_le_div_left (by omega) (by decide)
  have bounded := n.toNat_lt
  rw [UInt64.toNat_div]
  omega

theorem toNat_pagesFor :
    (limit.pagesFor n).toNat =
      if 0 < n.toNat % limit.value.toNat then n.toNat / limit.value.toNat + 1
      else n.toNat / limit.value.toNat := by
  have same : 0 < n % limit.value ↔ 0 < n.toNat % limit.value.toNat := by
    rw [UInt64.lt_iff_toNat_lt, UInt64.toNat_mod]
    rfl
  rw [pagesFor]
  by_cases left : 0 < n % limit.value
  · have fits := limit.fullPages_succ_lt n left
    rw [if_pos left, if_pos (same.1 left), UInt64.toNat_add, UInt64.toNat_one,
      Nat.mod_eq_of_lt fits, UInt64.toNat_div]
  · rw [if_neg left, if_neg (mt same.2 left), UInt64.toNat_div]

/-- The number of pages is the least that is enough. -/
theorem isLeast_pagesFor :
    IsLeast {p : ℕ | n.toNat ≤ p * limit.value.toNat} (limit.pagesFor n).toNat := by
  have positive := limit.value_pos
  have whole := Nat.div_add_mod' n.toNat limit.value.toNat
  have short := Nat.mod_lt n.toNat positive
  rw [toNat_pagesFor]
  constructor
  · show n.toNat ≤ _ * limit.value.toNat
    split
    · rw [Nat.succ_mul]
      omega
    · omega
  · intro p enough
    have enough : n.toNat ≤ p * limit.value.toNat := enough
    split
    · refine Nat.lt_of_mul_lt_mul_right (a := limit.value.toNat) ?_
      omega
    · exact Nat.div_le_of_le_mul (by rwa [Nat.mul_comm])

theorem toNat_pagesFor_eq_ceil :
    (limit.pagesFor n).toNat = ⌈(n.toNat / limit.value.toNat : ℚ)⌉₊ := by
  have positive : (0 : ℚ) < limit.value.toNat := Nat.cast_pos.2 limit.value_pos
  refine (limit.isLeast_pagesFor n).unique ⟨?_, fun p enough => ?_⟩
  · have above := Nat.le_ceil (n.toNat / limit.value.toNat : ℚ)
    rw [div_le_iff₀ positive] at above
    exact_mod_cast above
  · rw [Nat.ceil_le, div_le_iff₀ positive]
    exact_mod_cast enough

end PageLimit

namespace FilterSet

section Filtered

variable (filters : FilterSet) (page : Page) (limit : PageLimit)

/-- A submission is kept or dropped. -/
theorem length_kept_add_dropped :
    (filters.apply page limit).responses.length +
        page.responses.countP (fun s => ¬filters.MetBy s) =
      page.responses.length := by
  have dropped : page.responses.countP (fun s => decide (¬filters.MetBy s)) =
      page.responses.countP (fun s => ¬filters.admits s = true) :=
    List.countP_congr fun s _ => by simp [admits_eq_true_iff]
  have kept : (filters.apply page limit).responses.length =
      page.responses.countP filters.admits := List.countP_eq_length_filter.symm
  rw [dropped, kept, ← List.length_eq_countP_add_countP]

/-- The total loses what was dropped, down to zero. -/
theorem toNat_totalResponses_apply :
    (filters.apply page limit).totalResponses.toNat =
      page.totalResponses.toNat - page.responses.countP (fun s => ¬filters.MetBy s) := by
  have both := filters.length_kept_add_dropped page limit
  have total : (filters.apply page limit).totalResponses.toNat = page.totalResponses.toNat -
      (page.responses.length - (filters.apply page limit).responses.length) :=
    toNat_totalResponses_reconcile _ _ _ limit
  rw [total]
  omega

theorem pageCount_apply :
    (filters.apply page limit).pageCount =
      limit.pagesFor (filters.apply page limit).totalResponses := rfl

end Filtered

/-- The counts of a filtered page in unbounded arithmetic. The total loses what was dropped, down to
zero, and the pages are the least that are enough for it; neither dividing nor adding a page leaves
the numbers of 64 bits. A total that covers the page loses exactly what was dropped, and one that
counts the page alone counts what is kept. Where nothing is dropped, as by no clauses at all, the
total stays, and the number of pages stays if it was right. -/
theorem counts_apply (filters : FilterSet) (page : Page) (limit : PageLimit) :
    let kept := filters.apply page limit
    let removed := page.responses.countP fun s => ¬filters.MetBy s
    let perPage := limit.value.toNat
    kept.responses.length + removed = page.responses.length ∧
    (kept.totalResponses.toNat : ℤ) = max 0 ((page.totalResponses.toNat : ℤ) - removed) ∧
    IsLeast {p : ℕ | kept.totalResponses.toNat ≤ p * perPage} kept.pageCount.toNat ∧
    (0 < perPage ∧ (0 < kept.totalResponses % limit.value →
      (kept.totalResponses / limit.value).toNat + 1 < 2 ^ 64)) ∧
    (page.responses.length ≤ page.totalResponses.toNat →
      kept.responses.length ≤ kept.totalResponses.toNat ∧
        (page.totalResponses.toNat : ℤ) - kept.totalResponses.toNat = removed) ∧
    (page.totalResponses.toNat = page.responses.length →
      kept.totalResponses.toNat = kept.responses.length) ∧
    (removed = 0 → kept.totalResponses = page.totalResponses ∧
      (kept.pageCount = page.pageCount ↔
        page.pageCount.toNat = ⌈(page.totalResponses.toNat / perPage : ℚ)⌉₊)) ∧
    (filters = [] → removed = 0) := by
  intro kept removed perPage
  have both : kept.responses.length + removed = page.responses.length :=
    filters.length_kept_add_dropped page limit
  have total : kept.totalResponses.toNat = page.totalResponses.toNat - removed :=
    filters.toNat_totalResponses_apply page limit
  have pages : kept.pageCount = limit.pagesFor kept.totalResponses :=
    filters.pageCount_apply page limit
  refine ⟨both, by omega, ?_, ⟨limit.value_pos, ?_⟩, ?_, ?_, ?_, ?_⟩
  · rw [pages]
    exact limit.isLeast_pagesFor _
  · exact limit.fullPages_succ_lt _
  · intro covers
    constructor <;> omega
  · intro single
    omega
  · intro nothing
    have stays : kept.totalResponses = page.totalResponses := by
      rw [← UInt64.toNat_inj, total, nothing, Nat.sub_zero]
    refine ⟨stays, ?_⟩
    rw [pages, stays, ← UInt64.toNat_inj, limit.toNat_pagesFor_eq_ceil, eq_comm]
  · rintro rfl
    exact List.countP_eq_zero.2 fun s _ => by simp [MetBy]

/-- The largest total and the largest limit, of which the sum would not be a number of 64 bits. -/
theorem counts_apply_of_largest :
    let page : Page := { twoAges with totalResponses := 18446744073709551615 }
    let limit : PageLimit := ⟨18446744073709551615, by decide⟩
    let kept := fromFiveToTen.apply page limit
    (page.responses.length ≤ page.totalResponses.toNat ∧ 0 < kept.totalResponses % limit.value) ∧
      kept.responses.length ≤ kept.totalResponses.toNat ∧
      (kept.totalResponses / limit.value).toNat + 1 < 2 ^ 64 := by
  intro page limit kept
  have covers : page.responses.length ≤ page.totalResponses.toNat := by decide
  have left : 0 < kept.totalResponses % limit.value := by decide +kernel
  obtain ⟨-, -, -, ⟨-, fits⟩, covered, -⟩ := fromFiveToTen.counts_apply page limit
  exact ⟨⟨covers, left⟩, (covered covers).1, fits left⟩

end FilterSet

end FormSieve
