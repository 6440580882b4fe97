import FormSieve.Proofs.Filter.Composition
import FormSieve.Proofs.Number.Value
import FormSieve.Proofs.Text.Order
import Mathlib.Data.List.Nodup

/-!
# What the comparators say together

A value is compared only with targets of its own kind. There the comparators are a strict order and
what goes with it: a value is equal to a target, or greater, or less, and a value that is greater
than one target is greater than all that are not above it. So filters that ask one question with the
same target divide the submissions that answer it once, and asking for what lies between two targets
finds nothing when they are the wrong way around.

Numbers are compared as doubles, which have 53 binary digits. That leaves the order of whole numbers
as it is, but for large ones that are close together, which may count as equal.
-/

namespace FormSieve

open Json

/-! ## Kinds -/

namespace Json

inductive Kind where
  | null
  | boolean
  | number
  | text
  | array
  | object
deriving DecidableEq, Repr

def Value.kind : Value → Kind
  | .null => .null
  | .boolean _ => .boolean
  | .number _ => .number
  | .text _ => .text
  | .array _ => .array
  | .object _ => .object

end Json

def Target.kind (t : Target) : Kind := t.toValue.kind

/-- Whether a comparator holds of a value and a target. -/
def Comparator.Holds (c : Comparator) (v : Value) (t : Target) : Prop :=
  c.accepts (t.order v) = true

instance (c : Comparator) (v : Value) (t : Target) : Decidable (c.Holds v t) :=
  inferInstanceAs (Decidable (_ = _))

namespace Target

variable {v : Value} {a b t : Target}

/-- Values and targets are in an order just if they are of one kind. -/
theorem order_eq_none_iff : t.order v = none ↔ v.kind ≠ t.kind := by
  cases t <;> cases v <;> simp [order, kind, toValue, Value.kind]

theorem exists_order (h : v.kind = t.kind) : ∃ o, t.order v = some o :=
  Option.ne_none_iff_exists'.1 fun unordered => order_eq_none_iff.1 unordered h

/-- Targets the other way around are in the other order. -/
theorem order_swap (a b : Target) : (b.order a.toValue).map Ordering.swap = a.order b.toValue := by
  cases a with
  | number m =>
      cases b with
      | number n => exact congrArg some Std.OrientedCmp.eq_swap.symm
      | text t => rfl
  | text s =>
      cases b with
      | number n => rfl
      | text t => exact congrArg some (Text.order_swap s t)

section Trans

variable {α : Type} {cmp : α → α → Ordering} [Std.TransCmp cmp] {x y z : α}

theorem gt_of_not_gt (h : cmp y z ≠ .gt) (above : cmp x z = .gt) : cmp x y = .gt := by
  refine Std.TransCmp.gt_of_gt_of_isGE above ?_
  rw [Std.OrientedCmp.isGE_iff_isLE]
  exact Ordering.isLE_iff_ne_gt.2 h

theorem lt_of_not_gt (h : cmp y z ≠ .gt) (below : cmp x y = .lt) : cmp x z = .lt :=
  Std.TransCmp.lt_of_lt_of_isLE below (Ordering.isLE_iff_ne_gt.2 h)

end Trans

/-- A value above the greater of two targets is above the other, and a value below the other is
below the greater. -/
theorem order_of_not_gt (kinds : a.kind = b.kind) (h : b.order a.toValue ≠ some .gt) :
    (b.order v = some .gt → a.order v = some .gt) ∧
      (a.order v = some .lt → b.order v = some .lt) := by
  cases a with
  | number m =>
      cases b with
      | text t => cases kinds
      | number n =>
          have notAbove : compare m.signedRank n.signedRank ≠ .gt := mt (congrArg some) h
          cases v with
          | number k =>
              exact ⟨fun above => congrArg some (gt_of_not_gt notAbove (Option.some.inj above)),
                fun below => congrArg some (lt_of_not_gt notAbove (Option.some.inj below))⟩
          | _ => exact ⟨nofun, nofun⟩
  | text s =>
      cases b with
      | number n => cases kinds
      | text t =>
          have notAbove : Text.order s t ≠ .gt := mt (congrArg some) h
          cases v with
          | text r =>
              exact ⟨fun above => congrArg some (gt_of_not_gt notAbove (Option.some.inj above)),
                fun below => congrArg some (lt_of_not_gt notAbove (Option.some.inj below))⟩
          | _ => exact ⟨nofun, nofun⟩

end Target

namespace Comparator

variable {v : Value} {a b : Target}

@[simp] theorem holds_equals_iff : equals.Holds v a ↔ a.order v = some .eq := decide_eq_true_iff

@[simp] theorem holds_notEqual_iff : notEqual.Holds v a ↔ a.order v ≠ some .eq := decide_eq_true_iff

@[simp] theorem holds_greaterThan_iff : greaterThan.Holds v a ↔ a.order v = some .gt :=
  decide_eq_true_iff

@[simp] theorem holds_lessThan_iff : lessThan.Holds v a ↔ a.order v = some .lt :=
  decide_eq_true_iff

/-- A value is equal to a target or it is not. -/
theorem existsUnique_holds (v : Value) (a : Target) :
    ∃! c, c ∈ [equals, notEqual] ∧ c.Holds v a := by
  by_cases same : a.order v = some .eq
  · refine ⟨equals, ⟨by decide, holds_equals_iff.2 same⟩, ?_⟩
    rintro c ⟨member, holds⟩
    rcases List.mem_pair.1 member with rfl | rfl
    · rfl
    · exact absurd same (holds_notEqual_iff.1 holds)
  · refine ⟨notEqual, ⟨by decide, holds_notEqual_iff.2 same⟩, ?_⟩
    rintro c ⟨member, holds⟩
    rcases List.mem_pair.1 member with rfl | rfl
    · exact absurd (holds_equals_iff.1 holds) same
    · rfl

/-- The comparator that asks for an order. -/
def ofOrdering : Ordering → Comparator
  | .eq => equals
  | .gt => greaterThan
  | .lt => lessThan

theorem ofOrdering_mem (o : Ordering) : ofOrdering o ∈ [equals, greaterThan, lessThan] := by
  cases o <;> decide

theorem holds_ofOrdering_iff (o : Ordering) : (ofOrdering o).Holds v a ↔ a.order v = some o := by
  cases o <;> simp [ofOrdering]

theorem exists_ofOrdering {c : Comparator} (h : c ∈ [equals, greaterThan, lessThan]) :
    ∃ o, c = ofOrdering o := by
  simp only [List.mem_cons, List.not_mem_nil, or_false] at h
  rcases h with rfl | rfl | rfl
  · exact ⟨.eq, rfl⟩
  · exact ⟨.gt, rfl⟩
  · exact ⟨.lt, rfl⟩

/-- A value of the kind of a target is equal, greater or less. -/
theorem existsUnique_holds_of_kind (h : v.kind = a.kind) :
    ∃! c, c ∈ [equals, greaterThan, lessThan] ∧ c.Holds v a := by
  obtain ⟨o, order⟩ := Target.exists_order h
  refine ⟨ofOrdering o, ⟨ofOrdering_mem o, (holds_ofOrdering_iff o).2 order⟩, ?_⟩
  rintro c ⟨member, holds⟩
  obtain ⟨o', rfl⟩ := exists_ofOrdering member
  have order' := (holds_ofOrdering_iff o').1 holds
  rw [Option.some.inj (order'.symm.trans order)]

/-- A value of another kind is none of these. -/
theorem not_holds_of_kind {c : Comparator} (member : c ∈ [equals, greaterThan, lessThan])
    (h : v.kind ≠ a.kind) : ¬ c.Holds v a := by
  obtain ⟨o, rfl⟩ := exists_ofOrdering member
  rw [holds_ofOrdering_iff, Target.order_eq_none_iff.2 h]
  exact nofun

end Comparator

/-! ## Dividing a list -/

/-- Parts of a list, each in order, that have nothing in common and make up the whole. -/
structure Divides {α : Type} (parts : List (List α)) (whole : List α) : Prop where
  inOrder : ∀ part ∈ parts, part.Sublist whole
  apart : parts.Pairwise List.Disjoint
  together : parts.flatten.Perm whole

section Divides

variable {α ι : Type} {p : ι → α → Bool}

/-- A list is divided by what holds of its items if just one thing holds of each. -/
theorem perm_flatten_filter (cs : List ι) (distinct : cs.Nodup) (whole : List α)
    (one : ∀ x ∈ whole, ∃! c, c ∈ cs ∧ p c x = true) :
    (cs.map fun c => whole.filter (p c)).flatten.Perm whole := by
  induction cs generalizing whole with
  | nil =>
      cases whole with
      | nil => exact .refl _
      | cons x rest =>
          obtain ⟨c, ⟨member, -⟩, -⟩ := one x List.mem_cons_self
          exact absurd member List.not_mem_nil
  | cons c cs ih =>
      obtain ⟨other, distinct⟩ := List.nodup_cons.1 distinct
      -- What the first one does not hold of is divided by the others.
      have rest := ih distinct (whole.filter (!p c ·)) fun x member => by
        obtain ⟨inside, unheld⟩ := List.mem_filter.1 member
        obtain ⟨d, ⟨given, holds⟩, unique⟩ := one x inside
        refine ⟨d, ⟨?_, holds⟩, fun d' h => unique d' ⟨List.mem_cons_of_mem c h.1, h.2⟩⟩
        rcases List.mem_cons.1 given with rfl | given
        · simp [holds] at unheld
        · exact given
      have same : ∀ d ∈ cs, (whole.filter (!p c ·)).filter (p d) = whole.filter (p d) := by
        intro d given
        rw [List.filter_filter]
        refine List.filter_congr fun x member => ?_
        cases holds : p d x with
        | false => rfl
        | true =>
          cases here : p c x with
          | false => rfl
          | true =>
            have both := (one x member).unique ⟨List.mem_cons_self, here⟩
              ⟨List.mem_cons_of_mem c given, holds⟩
            exact absurd (both ▸ given) other
      rw [List.map_congr_left same] at rest
      rw [List.map_cons, List.flatten_cons]
      exact (rest.append_left _).trans (List.filter_append_perm (p c) whole)

theorem divides_filter {cs : List ι} (distinct : cs.Nodup) {whole : List α}
    (one : ∀ x ∈ whole, ∃! c, c ∈ cs ∧ p c x = true) :
    Divides (cs.map fun c => whole.filter (p c)) whole where
  inOrder part member := by
    obtain ⟨c, -, rfl⟩ := List.mem_map.1 member
    exact List.filter_sublist
  apart := by
    refine List.pairwise_map.2 (distinct.imp_of_mem fun {c d} given given' other => ?_)
    intro x member member'
    obtain ⟨inside, holds⟩ := List.mem_filter.1 member
    exact other ((one x inside).unique ⟨given, holds⟩ ⟨given', List.of_mem_filter member'⟩)
  together := perm_flatten_filter cs distinct whole one

end Divides

/-! ## Filters of one question -/

namespace FilterSet

variable {q : String} {a b : Target} {s : Submission} {submissions : List Submission}

/-- A submission that answers a question once is judged by that answer. -/
theorem admits_single_iff {answer : Answer} (once : s.answersTo q = [answer]) (c : Comparator)
    (a : Target) : FilterSet.admits [⟨q, c, a⟩] s = true ↔ c.Holds answer.value a := by
  have answers (other : Answer) : other ∈ s.answers ∧ other.id = q ↔ other = answer := by
    rw [← Submission.mem_answersTo, once, List.mem_singleton]
  rw [admits_eq_true_iff]
  constructor
  · intro met
    obtain ⟨given, question⟩ := (answers answer).2 rfl
    exact (met ⟨q, c, a⟩ List.mem_cons_self).2 answer given question
  · rintro holds clause member
    obtain rfl := List.mem_singleton.1 member
    refine ⟨⟨answer, (answers answer).2 rfl⟩, fun other given question => ?_⟩
    obtain rfl := (answers other).1 ⟨given, question⟩
    exact holds

theorem divides_equals (once : ∀ s ∈ submissions, ∃ answer, s.answersTo q = [answer])
    (a : Target) :
    Divides [submissions.filter (FilterSet.admits [⟨q, .equals, a⟩]),
      submissions.filter (FilterSet.admits [⟨q, .notEqual, a⟩])] submissions := by
  change Divides ([Comparator.equals, .notEqual].map fun c =>
    submissions.filter (FilterSet.admits [⟨q, c, a⟩])) submissions
  refine divides_filter (by decide) fun s member => ?_
  obtain ⟨answer, answered⟩ := once s member
  simp only [admits_single_iff answered]
  exact Comparator.existsUnique_holds answer.value a

/-- The submissions with answers of the kind of a target. -/
def ofKind (q : String) (a : Target) (submissions : List Submission) : List Submission :=
  submissions.filter fun s => (s.answersTo q).all (·.value.kind = a.kind)

theorem divides_order (once : ∀ s ∈ submissions, ∃ answer, s.answersTo q = [answer])
    (a : Target) :
    Divides [submissions.filter (FilterSet.admits [⟨q, .equals, a⟩]),
      submissions.filter (FilterSet.admits [⟨q, .greaterThan, a⟩]),
      submissions.filter (FilterSet.admits [⟨q, .lessThan, a⟩])] (ofKind q a submissions) := by
  have inside : ∀ c ∈ [Comparator.equals, .greaterThan, .lessThan],
      (ofKind q a submissions).filter (FilterSet.admits [⟨q, c, a⟩]) =
        submissions.filter (FilterSet.admits [⟨q, c, a⟩]) := by
    intro c given
    rw [ofKind, List.filter_filter]
    refine List.filter_congr fun s member => ?_
    obtain ⟨answer, answered⟩ := once s member
    rw [Bool.eq_iff_iff, Bool.and_eq_true, and_iff_left_iff_imp, admits_single_iff answered,
      answered]
    intro holds
    by_contra other
    exact Comparator.not_holds_of_kind given (by simpa using other) holds
  have divided : Divides ([Comparator.equals, .greaterThan, .lessThan].map fun c =>
      (ofKind q a submissions).filter (FilterSet.admits [⟨q, c, a⟩])) (ofKind q a submissions) := by
    refine divides_filter (by decide) fun s member => ?_
    obtain ⟨given, kind⟩ := List.mem_filter.1 member
    obtain ⟨answer, answered⟩ := once s given
    simp only [admits_single_iff answered]
    exact Comparator.existsUnique_holds_of_kind (by simpa [answered] using kind)
  rwa [List.map_congr_left inside] at divided

/-- Nothing is above a target and below one that is not above it. -/
theorem admits_eq_false_of_crossed {filters : FilterSet}
    (above : ⟨q, .greaterThan, a⟩ ∈ filters) (below : ⟨q, .lessThan, b⟩ ∈ filters)
    (kinds : a.kind = b.kind) (h : ¬ Comparator.lessThan.Holds a.toValue b) (s : Submission) :
    ¬ filters.admits s = true := by
  rw [admits_eq_true_iff]
  intro met
  obtain ⟨⟨answer, given, question⟩, accepted⟩ := met _ above
  have greater : a.order answer.value = some .gt :=
    Comparator.holds_greaterThan_iff.1 (accepted answer given question)
  have less : b.order answer.value = some .lt :=
    Comparator.holds_lessThan_iff.1 ((met _ below).2 answer given question)
  have notAbove : a.order b.toValue ≠ some .gt := by
    rw [← Target.order_swap]
    intro swapped
    obtain ⟨o, order, opposite⟩ := Option.map_eq_some_iff.1 swapped
    rw [Ordering.swap_eq_gt] at opposite
    exact h (Comparator.holds_lessThan_iff.2 (opposite ▸ order))
  have lower := (Target.order_of_not_gt kinds.symm notAbove).2 less
  exact nomatch greater.symm.trans lower

end FilterSet

/-- Comparators form a coherent order. A value is equal to a target or not; if both are of one kind,
it is equal, greater or less, and otherwise none of these; what is above a target is above each that
is not above it, and likewise below. So, where all submissions of a page answer a question once, the
two filters that ask for equality and against it divide the page, the three that ask for an order
divide the submissions that answer with a value of the target's kind, and filters that ask for
something above a target and below another that is not above it keep nothing of any page. -/
theorem comparators_are_coherent (v : Value) (a b : Target) (q : String) (page : Page)
    (limit : PageLimit) :
    let kept (filters : FilterSet) := (filters.apply page limit).responses
    (∃! c, c ∈ [Comparator.equals, .notEqual] ∧ c.Holds v a) ∧
    (v.kind = a.kind →
      ∃! c, c ∈ [Comparator.equals, .greaterThan, .lessThan] ∧ c.Holds v a) ∧
    (v.kind ≠ a.kind →
      ∀ c ∈ [Comparator.equals, .greaterThan, .lessThan], ¬ c.Holds v a) ∧
    (a.kind = b.kind → ¬ Comparator.greaterThan.Holds a.toValue b →
      (Comparator.greaterThan.Holds v b → Comparator.greaterThan.Holds v a) ∧
        (Comparator.lessThan.Holds v a → Comparator.lessThan.Holds v b)) ∧
    ((∀ s ∈ page.responses, ∃ answer, s.answersTo q = [answer]) →
      Divides [kept [⟨q, .equals, a⟩], kept [⟨q, .notEqual, a⟩]] page.responses ∧
      Divides [kept [⟨q, .equals, a⟩], kept [⟨q, .greaterThan, a⟩], kept [⟨q, .lessThan, a⟩]]
        (page.responses.filter fun s => (s.answersTo q).all (·.value.kind = a.kind))) ∧
    ∀ filters : FilterSet, ⟨q, .greaterThan, a⟩ ∈ filters → ⟨q, .lessThan, b⟩ ∈ filters →
      a.kind = b.kind → ¬ Comparator.lessThan.Holds a.toValue b → kept filters = [] := by
  intro kept
  refine ⟨Comparator.existsUnique_holds v a, Comparator.existsUnique_holds_of_kind, ?_, ?_, ?_, ?_⟩
  · intro other c member
    exact Comparator.not_holds_of_kind member other
  · intro kinds notAbove
    simp only [Comparator.holds_greaterThan_iff, Comparator.holds_lessThan_iff] at notAbove ⊢
    exact Target.order_of_not_gt kinds notAbove
  · intro once
    exact ⟨FilterSet.divides_equals once a, FilterSet.divides_order once a⟩
  · intro filters above below kinds notBelow
    exact List.filter_eq_nil_iff.2 fun s _ =>
      FilterSet.admits_eq_false_of_crossed above below kinds notBelow s

/-- A page on which each submission tells an age, once as a text. -/
def tellingAges : Page :=
  ⟨[.number (.ofInt64 5), .number (.ofInt64 7), .text "7"].map fun age => ⟨[.plain "age" age], []⟩,
    3, 1⟩

/-- Only the ages that are numbers are in the order, and none is above seven and below five. -/
theorem comparators_are_coherent_of_ages :
    let kept (filters : FilterSet) := (filters.apply tellingAges .standard).responses
    let five : Target := .number (.ofInt64 5)
    let seven : Target := .number (.ofInt64 7)
    let twelve : Value := .number (.ofInt64 12)
    (∃! c, c ∈ [Comparator.equals, .greaterThan, .lessThan] ∧ c.Holds twelve five) ∧
    ¬ Comparator.equals.Holds (.text "7") seven ∧
    (Comparator.greaterThan.Holds twelve seven ∧ Comparator.greaterThan.Holds twelve five) ∧
    Divides [kept [⟨"age", .equals, seven⟩], kept [⟨"age", .notEqual, seven⟩]]
      tellingAges.responses ∧
    Divides [kept [⟨"age", .equals, seven⟩], kept [⟨"age", .greaterThan, seven⟩],
      kept [⟨"age", .lessThan, seven⟩]] (tellingAges.responses.take 2) ∧
    kept [⟨"age", .lessThan, five⟩, ⟨"age", .greaterThan, seven⟩] = [] := by
  intro kept five seven twelve
  have once : ∀ s ∈ tellingAges.responses, ∃ answer, s.answersTo "age" = [answer] := by
    intro s member
    obtain ⟨age, -, rfl⟩ := List.mem_map.1 member
    exact ⟨_, rfl⟩
  obtain ⟨-, ordered, -, above, -, -⟩ :=
    comparators_are_coherent twelve five seven "age" tellingAges .standard
  obtain ⟨-, -, other, -, divided, crossed⟩ :=
    comparators_are_coherent (.text "7") seven five "age" tellingAges .standard
  have greater : Comparator.greaterThan.Holds twelve seven := by decide +kernel
  refine ⟨ordered rfl, other (by decide) _ (by decide), ⟨greater, ?_⟩, (divided once).1, ?_, ?_⟩
  · exact (above rfl (by decide +kernel)).1 greater
  · exact (divided once).2
  · exact crossed _ (by decide) (by decide) rfl (by decide +kernel)

/-! ## Whole numbers -/

namespace Target

open Binary64

/-- Whole numbers are ordered as the doubles nearest to them. So one counts as less or greater only
if it is, and as equal if it is; up to 53 binary digits, the order is that of the numbers, and so
are the comparisons; and beyond, the only fault is that different numbers count as equal, which then
differ by at most 2048. -/
theorem order_of_whole_numbers (m n : Int) (hm : -2 ^ 63 ≤ m ∧ m < 2 ^ 64)
    (hn : -2 ^ 63 ≤ n ∧ n < 2 ^ 64) :
    let v : Value := .number (.integer m hm)
    let t : Target := .number (.integer n hn)
    (∃ x y : Binary64, x.Nearest m ∧ y.Nearest n ∧ t.order v = some (compare x.value y.value)) ∧
    (t.order v = some .lt → m < n) ∧
    (t.order v = some .gt → n < m) ∧
    (m = n → t.order v = some .eq) ∧
    (|m| ≤ 2 ^ 53 → |n| ≤ 2 ^ 53 →
      t.order v = some (compare m n) ∧
      (Comparator.equals.Holds v t ↔ m = n) ∧
      (Comparator.greaterThan.Holds v t ↔ n < m) ∧
      (Comparator.lessThan.Holds v t ↔ m < n)) ∧
    (t.order v ≠ some (compare m n) →
      t.order v = some .eq ∧ m ≠ n ∧ |m - n| ≤ 2048) := by
  intro v t
  have hm' := Number.natAbs_le_of_fits hm
  have hn' := Number.natAbs_le_of_fits hn
  have order : t.order v = some (compare (ofInt m hm').value (ofInt n hn').value) :=
    congrArg some (Number.compare_signedRank (.integer m hm) (.integer n hn))
  refine ⟨⟨_, _, ofInt_nearest, ofInt_nearest, order⟩, ?_, ?_, ?_, ?_, ?_⟩
  · intro less
    exact lt_of_value_lt (compare_lt_iff_lt.1 (Option.some.inj (order.symm.trans less)))
  · intro greater
    exact lt_of_value_lt (compare_gt_iff_gt.1 (Option.some.inj (order.symm.trans greater)))
  · rintro rfl
    rw [order]
    exact congrArg some (compare_eq_iff_eq.2 rfl)
  · intro small small'
    rw [abs_le] at small small'
    have exactly : t.order v = some (compare m n) := by
      rw [order, compare_value_ofInt_of_small (by omega) (by omega)]
    refine ⟨exactly, ?_, ?_, ?_⟩
    · rw [Comparator.holds_equals_iff, exactly, Option.some_inj]
      exact compare_eq_iff_eq
    · rw [Comparator.holds_greaterThan_iff, exactly, Option.some_inj]
      exact compare_gt_iff_gt
    · rw [Comparator.holds_lessThan_iff, exactly, Option.some_inj]
      exact compare_lt_iff_lt
  · intro fault
    rw [order] at fault ⊢
    obtain ⟨equal, other, close⟩ :=
      compare_value_ofInt_eq_of_ne fun same => fault (congrArg some same)
    exact ⟨congrArg some equal, other, close⟩

/-- The farthest that two numbers which count as equal can be apart: each is halfway between two
doubles, and the even one between them is the nearest to both. -/
theorem order_of_whole_numbers_of_halfway :
    let m : Int := 2 ^ 63 + 3072
    let n : Int := 2 ^ 63 + 5120
    ∃ (hm : -2 ^ 63 ≤ m ∧ m < 2 ^ 64) (hn : -2 ^ 63 ≤ n ∧ n < 2 ^ 64),
      (Target.number (.integer n hn)).order (.number (.integer m hm)) = some .eq ∧
        m ≠ n ∧ |m - n| ≤ 2048 := by
  intro m n
  have hm : -2 ^ 63 ≤ m ∧ m < 2 ^ 64 := by decide
  have hn : -2 ^ 63 ≤ n ∧ n < 2 ^ 64 := by decide
  have fault : (Target.number (.integer n hn)).order (.number (.integer m hm)) ≠
      some (compare m n) := by decide +kernel +revert
  obtain ⟨-, -, -, -, -, faults⟩ := order_of_whole_numbers m n hm hn
  exact ⟨hm, hn, faults fault⟩

end Target

end FormSieve
