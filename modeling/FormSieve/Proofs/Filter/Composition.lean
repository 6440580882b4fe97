import FormSieve.Proofs.Filter.Grouping

/-!
# Filtering in stages

A page that was filtered can be filtered again, as if it had come from the provider. The second
stage then corrects a total that the first has corrected already, knowing only the shorter page.
The main statement is that two stages come to one stage with the clauses of both, counts
included, and that a filter is no more than the set of its clauses.
-/

namespace FormSieve

/-- A total loses what the page has lost, and never drops below zero. -/
theorem toNat_totalResponses_reconcile (total : UInt64) (original filtered : Nat)
    (limit : PageLimit) :
    (reconcile total original filtered limit).totalResponses.toNat =
      total.toNat - (original - filtered) :=
  UInt64.toNat_ofNat_of_lt' (Nat.lt_of_le_of_lt (Nat.sub_le _ _) total.toNat_lt)

/-- Corrections add up: what was lost first and what was lost then is what was lost in all. This
also holds when the total is smaller than the loss, since a total never drops below zero. -/
theorem reconcile_reconcile (total : UInt64) {original first second : Nat}
    (limit limit' : PageLimit) (h₁ : first ≤ original) (h₂ : second ≤ first) :
    reconcile (reconcile total original first limit).totalResponses first second limit' =
      reconcile total original second limit' := by
  have once := toNat_totalResponses_reconcile total original first limit
  have lost : total.toNat - (original - first) - (first - second) =
      total.toNat - (original - second) := by omega
  simp only [reconcile] at once ⊢
  rw [once, lost]

namespace FilterSet

/-- What a filter admits is what meets all its clauses. -/
theorem admits_eq_true_iff (filters : FilterSet) (s : Submission) :
    filters.admits s = true ↔ filters.MetBy s :=
  filters.groups_represent.all_admits_iff

/-- Filters with the same clauses, in whatever order and however often, admit the same. -/
theorem admits_congr {filters filters' : FilterSet} (h : ∀ c, c ∈ filters ↔ c ∈ filters') :
    filters.admits = filters'.admits := by
  funext s
  rw [Bool.eq_iff_iff, admits_eq_true_iff, admits_eq_true_iff]
  exact forall_congr' fun c => by rw [h]

theorem admits_append (first second : FilterSet) (s : Submission) :
    FilterSet.admits (first ++ second) s = (first.admits s && second.admits s) := by
  rw [Bool.eq_iff_iff, Bool.and_eq_true]
  simp only [admits_eq_true_iff, MetBy, List.mem_append, or_imp, forall_and]

theorem apply_congr {filters filters' : FilterSet} (h : ∀ c, c ∈ filters ↔ c ∈ filters')
    (page : Page) (limit : PageLimit) : filters.apply page limit = filters'.apply page limit := by
  rw [apply, apply, admits_congr h]

/-- The second stage drops what it would have dropped from the whole page. -/
theorem apply_apply (first second : FilterSet) (page : Page) (limit limit' : PageLimit) :
    second.apply (first.apply page limit) limit' =
      FilterSet.apply (first ++ second) page limit' := by
  have kept : (page.responses.filter first.admits).filter second.admits =
      page.responses.filter (FilterSet.admits (first ++ second)) := by
    rw [List.filter_filter]
    refine List.filter_congr fun s _ => ?_
    rw [admits_append, Bool.and_comm]
  have shorter := List.length_filter_le first.admits page.responses
  have shorter' := List.length_filter_le second.admits (page.responses.filter first.admits)
  have counts := reconcile_reconcile page.totalResponses limit limit' shorter shorter'
  rw [kept] at counts
  simp only [apply, kept, counts]

/-- Filtering in two stages is filtering once by the clauses of both, whatever the limits and the
counts. Only the set of the clauses matters, so a stage may be repeated, and stages may be
swapped. -/
theorem apply_stages (first second : FilterSet) (page : Page) (limit limit' other : PageLimit) :
    second.apply (first.apply page limit) limit' =
        FilterSet.apply (first ++ second) page limit' ∧
      ((∀ c, c ∈ first ↔ c ∈ second) → first.apply page limit = second.apply page limit) ∧
      first.apply (first.apply page limit) limit' = first.apply page limit' ∧
      second.apply (first.apply page limit) limit' =
        first.apply (second.apply page other) limit' := by
  refine ⟨apply_apply .., fun same => apply_congr same page limit, ?_, ?_⟩
  · rw [apply_apply]
    exact apply_congr (by simp) page limit'
  · rw [apply_apply, apply_apply]
    exact apply_congr (by simp [or_comm]) page limit'

/-- The clauses in another order, and one of them twice. -/
theorem apply_stages_repeated :
    (∀ c, c ∈ fromFiveToTen ↔ c ∈ fromFiveToTen.reverse ++ fromFiveToTen.take 1) ∧
      fromFiveToTen.apply twoAges .standard =
        FilterSet.apply (fromFiveToTen.reverse ++ fromFiveToTen.take 1) twoAges .standard := by
  have same : ∀ c, c ∈ fromFiveToTen ↔ c ∈ fromFiveToTen.reverse ++ fromFiveToTen.take 1 := by
    intro c
    rw [List.mem_append, List.mem_reverse]
    exact ⟨.inl, fun h => h.elim id List.mem_of_mem_take⟩
  exact ⟨same, (apply_stages fromFiveToTen _ twoAges .standard .standard .standard).2.1 same⟩

end FilterSet

end FormSieve
