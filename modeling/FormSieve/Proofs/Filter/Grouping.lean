import FormSieve.Filter.Matching
import Mathlib.Data.Finset.Card

/-!
# Grouping the clauses of a filter

A filter is a list of clauses, but it is evaluated question by question, over groups that hold
what all clauses ask of one question. The groups are kept in the order in which their questions
first occur; nothing may depend on that order, since a table of groups has none of its own.

The main statement is that filtering keeps exactly the submissions that meet every clause taken
by itself, in the order of the page, and that it does so for the groups in any order.
-/

namespace FormSieve

/-- A submission meets a clause if it answers the clause's question, and the clause accepts all
its answers to that question. -/
def Clause.MetBy (c : Clause) (s : Submission) : Prop :=
  (∃ a ∈ s.answers, a.id = c.id) ∧ ∀ a ∈ s.answers, a.id = c.id → c.accepts a.value = true

@[simp] theorem Submission.mem_answersTo {s : Submission} {id : String} {a : Answer} :
    a ∈ s.answersTo id ↔ a ∈ s.answers ∧ a.id = id := by
  simp [answersTo]

instance (c : Clause) (s : Submission) : Decidable (c.MetBy s) :=
  inferInstanceAs (Decidable (_ ∧ _))

/-- A submission meets a filter if it meets each clause of it. -/
def FilterSet.MetBy (filters : FilterSet) (s : Submission) : Prop := ∀ c ∈ filters, c.MetBy s

instance (filters : FilterSet) (s : Submission) : Decidable (filters.MetBy s) :=
  inferInstanceAs (Decidable (∀ c ∈ filters, _))

namespace Clause

/-- What a clause asks of each answer to its question. -/
def comparison (c : Clause) : Comparator × Target := (c.comparator, c.target)

/-- The comparisons that some clauses make for one question, in order. -/
def comparisonsFor (id : String) (clauses : List Clause) : List (Comparator × Target) :=
  (clauses.filter (·.id = id)).map comparison

theorem comparisonsFor_append (id : String) (first second : List Clause) :
    comparisonsFor id (first ++ second) =
      comparisonsFor id first ++ comparisonsFor id second := by
  simp [comparisonsFor]

theorem comparisonsFor_of_notMem {id : String} {clauses : List Clause}
    (h : id ∉ clauses.map Clause.id) : comparisonsFor id clauses = [] := by
  have unused : clauses.filter (·.id = id) = [] := by
    rw [List.filter_eq_nil_iff]
    intro c hc same
    exact h (List.mem_map.2 ⟨c, hc, by simpa using same⟩)
  rw [comparisonsFor, unused, List.map_nil]

end Clause

namespace ClauseGroup

/-- The questions of some groups. -/
def ids (groups : List ClauseGroup) : List String := groups.map ClauseGroup.id

@[simp] theorem ids_nil : ids [] = [] := rfl

@[simp] theorem ids_cons (g : ClauseGroup) (groups : List ClauseGroup) :
    ids (g :: groups) = g.id :: ids groups := rfl

/-- The groups of some clauses: one for each question asked about, with all comparisons that the
clauses make for it. Nothing is said about the order of the groups. -/
structure Represents (groups : List ClauseGroup) (clauses : List Clause) : Prop where
  nodup : (ids groups).Nodup
  mem_ids : ∀ id, id ∈ ids groups ↔ id ∈ clauses.map Clause.id
  comparisons : ∀ g ∈ groups, g.comparisons = Clause.comparisonsFor g.id clauses

theorem Represents.empty : Represents [] [] := ⟨List.nodup_nil, by simp, by simp⟩

/-- The order of the groups is of no account. -/
theorem Represents.perm {groups order : List ClauseGroup} {clauses : List Clause}
    (h : Represents groups clauses) (same : order.Perm groups) : Represents order clauses where
  nodup := (same.map ClauseGroup.id).nodup_iff.2 h.nodup
  mem_ids id := ((same.map ClauseGroup.id).mem_iff).trans (h.mem_ids id)
  comparisons g hg := h.comparisons g (same.mem_iff.1 hg)

/-! ## Inserting a clause -/

theorem mem_ids_insert (c : Clause) (groups : List ClauseGroup) (id : String) :
    id ∈ ids (insert c groups) ↔ id = c.id ∨ id ∈ ids groups := by
  induction groups with
  | nil => simp [insert]
  | cons g groups ih =>
      by_cases same : g.id = c.id
      · simp [insert, same]
      · simp only [insert, if_neg same, ids_cons, List.mem_cons, ih]
        exact or_left_comm

theorem nodup_ids_insert (c : Clause) {groups : List ClauseGroup} (h : (ids groups).Nodup) :
    (ids (insert c groups)).Nodup := by
  induction groups with
  | nil => simp [insert]
  | cons g groups ih =>
      rw [ids_cons, List.nodup_cons] at h
      by_cases same : g.id = c.id
      · simpa [insert, same] using And.intro (same ▸ h.1) h.2
      · simp only [insert, if_neg same, ids_cons, List.nodup_cons, mem_ids_insert, not_or]
        exact ⟨⟨same, h.1⟩, ih h.2⟩

/-- Only the group of the clause's question changes: it gains the clause's comparison, or is
opened with nothing else in it. -/
theorem mem_insert {c : Clause} {groups : List ClauseGroup} (nodup : (ids groups).Nodup)
    {g : ClauseGroup} (hg : g ∈ insert c groups) :
    (g ∈ groups ∧ g.id ≠ c.id) ∨
      (∃ old ∈ groups, old.id = c.id ∧ g = ⟨old.id, old.comparisons ++ [c.comparison]⟩) ∨
      (c.id ∉ ids groups ∧ g = ⟨c.id, [c.comparison]⟩) := by
  induction groups with
  | nil => exact .inr (.inr ⟨by simp, by simpa [insert, Clause.comparison] using hg⟩)
  | cons first groups ih =>
      rw [ids_cons, List.nodup_cons] at nodup
      by_cases same : first.id = c.id
      · simp only [insert, if_pos same, List.mem_cons] at hg
        rcases hg with rfl | hg
        · exact .inr (.inl ⟨first, by simp, same, rfl⟩)
        · refine .inl ⟨List.mem_cons_of_mem _ hg, ?_⟩
          rintro again
          exact nodup.1 (List.mem_map.2 ⟨g, hg, again.trans same.symm⟩)
      · simp only [insert, if_neg same, List.mem_cons] at hg
        rcases hg with rfl | hg
        · exact .inl ⟨by simp, same⟩
        · rcases ih nodup.2 hg with ⟨hg, other⟩ | ⟨old, hold, rest⟩ | ⟨fresh, rfl⟩
          · exact .inl ⟨List.mem_cons_of_mem _ hg, other⟩
          · exact .inr (.inl ⟨old, List.mem_cons_of_mem _ hold, rest⟩)
          · refine .inr (.inr ⟨?_, rfl⟩)
            rw [ids_cons, List.mem_cons, not_or]
            exact ⟨Ne.symm same, fresh⟩

/-- One clause more: the step of grouping. -/
theorem Represents.insert {groups : List ClauseGroup} {clauses : List Clause}
    (h : Represents groups clauses) (c : Clause) :
    Represents (ClauseGroup.insert c groups) (clauses ++ [c]) where
  nodup := nodup_ids_insert c h.nodup
  mem_ids id := by
    rw [mem_ids_insert, h.mem_ids, List.map_append, List.mem_append]
    simp [or_comm]
  comparisons g hg := by
    rw [Clause.comparisonsFor_append]
    rcases mem_insert h.nodup hg with ⟨hg, other⟩ | ⟨old, hold, same, rfl⟩ | ⟨fresh, rfl⟩
    · rw [h.comparisons g hg]
      simp [Clause.comparisonsFor, Ne.symm other]
    · simp [h.comparisons old hold, Clause.comparisonsFor, same]
    · rw [Clause.comparisonsFor_of_notMem fun hc => fresh ((h.mem_ids _).2 hc)]
      simp [Clause.comparisonsFor]

/-- Any number of clauses more. -/
theorem Represents.foldl {groups : List ClauseGroup} {clauses : List Clause}
    (h : Represents groups clauses) (more : List Clause) :
    Represents (more.foldl (fun groups c => ClauseGroup.insert c groups) groups)
      (clauses ++ more) := by
  induction more generalizing groups clauses with
  | nil => simpa using h
  | cons c more ih => simpa using ih (h.insert c)

/-! ## Admitting a submission -/

theorem admits_iff {g : ClauseGroup} {s : Submission} :
    g.admits s = true ↔
      (∃ a ∈ s.answers, a.id = g.id) ∧
        ∀ a ∈ s.answers, a.id = g.id →
          ∀ p ∈ g.comparisons, p.1.accepts (p.2.order a.value) = true := by
  simp only [admits, Bool.and_eq_true, Bool.not_eq_true', List.isEmpty_eq_false_iff_exists_mem,
    List.all_eq_true, Submission.mem_answersTo, and_imp, accepts]

/-- Groups admit what meets all clauses that they represent. The question of a group is that of
some clause, so a group never asks for an answer that no clause asks for. -/
theorem Represents.all_admits_iff {groups : List ClauseGroup} {clauses : FilterSet}
    (h : Represents groups clauses) {s : Submission} :
    groups.all (·.admits s) = true ↔ clauses.MetBy s := by
  rw [List.all_eq_true]
  constructor
  · intro admitted c hc
    obtain ⟨g, hg, same⟩ := List.mem_map.1 ((h.mem_ids c.id).2 (List.mem_map_of_mem hc))
    obtain ⟨answered, accepted⟩ := admits_iff.1 (admitted g hg)
    refine ⟨same ▸ answered, fun a ha question => ?_⟩
    refine accepted a ha (question.trans same.symm) c.comparison ?_
    rw [h.comparisons g hg]
    exact List.mem_map_of_mem (List.mem_filter.2 ⟨hc, by simp [same]⟩)
  · intro met g hg
    rw [admits_iff]
    obtain ⟨c, hc, same⟩ := List.mem_map.1 ((h.mem_ids g.id).1 (List.mem_map_of_mem hg))
    refine ⟨same ▸ (met c hc).1, fun a ha question p hp => ?_⟩
    rw [h.comparisons g hg] at hp
    obtain ⟨d, hd, rfl⟩ := List.mem_map.1 hp
    obtain ⟨hd, here⟩ := List.mem_filter.1 hd
    exact (met d hd).2 a ha (question.trans (by simpa [eq_comm] using here))

end ClauseGroup

namespace FilterSet

theorem groups_represent (filters : FilterSet) :
    ClauseGroup.Represents filters.groups filters := by
  simpa [groups] using ClauseGroup.Represents.empty.foldl filters

/-- A filter asks about as many questions as its clauses name. -/
theorem questionCount_eq_card (filters : FilterSet) :
    filters.questionCount = (filters.map Clause.id).toFinset.card := by
  have groups := filters.groups_represent
  have same : (filters.map Clause.id).toFinset = (ClauseGroup.ids filters.groups).toFinset := by
    ext id
    rw [List.mem_toFinset, List.mem_toFinset, groups.mem_ids]
  rw [same, List.toFinset_card_of_nodup groups.nodup, ClauseGroup.ids, List.length_map,
    questionCount]

/-- Filtering a page keeps, in the order of the page and unchanged, exactly the submissions that
meet every clause taken by itself. It keeps the same ones for the groups in any order. -/
theorem responses_apply (filters : FilterSet) (page : Page) (limit : PageLimit) :
    (filters.apply page limit).responses =
        page.responses.filter (fun s => decide (filters.MetBy s)) ∧
      (∀ order : List ClauseGroup, order.Perm filters.groups →
        page.responses.filter (fun s => order.all (·.admits s)) =
          (filters.apply page limit).responses) ∧
      filters.questionCount = (filters.map Clause.id).toFinset.card := by
  have kept : ∀ order : List ClauseGroup, order.Perm filters.groups →
      page.responses.filter (fun s => order.all (·.admits s)) =
        page.responses.filter (fun s => decide (filters.MetBy s)) := by
    intro order same
    refine List.filter_congr fun s _ => ?_
    rw [Bool.eq_iff_iff, decide_eq_true_iff]
    exact (filters.groups_represent.perm same).all_admits_iff
  have here : (filters.apply page limit).responses =
      page.responses.filter (fun s => decide (filters.MetBy s)) :=
    kept filters.groups (List.Perm.refl _)
  exact ⟨here, fun order same => (kept order same).trans here.symm, filters.questionCount_eq_card⟩

/-- Two clauses about one question around one about another. -/
def fromFiveToTen : FilterSet :=
  [⟨"age", .greaterThan, .number (.ofInt64 5)⟩, ⟨"name", .equals, .text "Ada"⟩,
    ⟨"age", .lessThan, .number (.ofInt64 10)⟩]

/-- A submission that gives two ages, of which only the first is between five and ten, and one
that gives one age and a name. -/
def twoAges : Page where
  responses :=
    [⟨[⟨"age", "", none, .number (.ofInt64 7), []⟩, ⟨"age", "", none, .number (.ofInt64 12), []⟩,
        ⟨"name", "", none, .text "Ada", []⟩], []⟩,
      ⟨[⟨"name", "", none, .text "Ada", []⟩, ⟨"age", "", none, .number (.ofInt64 7), []⟩], []⟩]
  totalResponses := 2
  pageCount := 1

theorem responses_apply_reverse :
    fromFiveToTen.groups.reverse.Perm fromFiveToTen.groups ∧
      twoAges.responses.filter (fun s => fromFiveToTen.groups.reverse.all (·.admits s)) =
        (fromFiveToTen.apply twoAges .standard).responses :=
  ⟨List.reverse_perm _,
    (fromFiveToTen.responses_apply twoAges .standard).2.1 _ (List.reverse_perm _)⟩

end FilterSet

end FormSieve
