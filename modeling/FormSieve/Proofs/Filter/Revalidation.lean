import FormSieve.Proofs.Filter.Validation
import FormSieve.Proofs.Json.Reread

/-!
# Validating filters again

The document that is written for accepted filters is accepted, and it gives the same filters but
for doubles, which are read with more roundings than one. So it gives the same filters exactly if
each of the doubles in them is read again.
-/

namespace FormSieve

open Json

/-- The target that is read from what is written for a target. -/
def Target.reread : Target → Target
  | .number (.float x) => .number (.float x.reread)
  | t => t

/-- The clause that is read from what is written for a clause. -/
def Clause.reread (c : Clause) : Clause := { c with target := c.target.reread }

namespace Target

theorem reread_eq_iff (t : Target) :
    t.reread = t ↔ ∀ x, t = .number (.float x) → x.reread = x := by
  cases t with
  | text s => simp [reread]
  | number n => cases n <;> simp [reread]

/-- What counts as given still does when it is read again. -/
theorem Given.reread {t : Target} (h : t.Given) : t.reread.Given := by
  cases t with
  | text s => exact h
  | number n =>
      cases n with
      | integer n fits => exact h
      | float x =>
          have nonzero : x.rank ≠ 0 := by
            rw [ne_eq, ← float_eq_signedZero_iff, not_or]
            exact h
          have again : x.reread.rank ≠ 0 := mt x.reread_rank_eq_zero_iff.1 nonzero
          rwa [ne_eq, ← float_eq_signedZero_iff, not_or] at again

/-- What is written for a target is a spelling of the target that is read. -/
theorem spelling_print (t : Target) {room : Nat} :
    t.reread.toValue.Spelling room (Text.bytes t.print) := by
  cases t with
  | text s => exact spelling_text s
  | number n =>
      cases n with
      | integer n fits => exact spelling_number (numberSpelling_integer n fits)
      | float x => exact spelling_number (numberSpelling_float x)

end Target

theorem Comparator.spelling_print (c : Comparator) {room : Nat} :
    (Value.text c.name).Spelling room (Text.bytes c.print) := by
  rw [Comparator.print, tag_eq_name]
  exact spelling_text _

namespace Clause

/-- The members of a clause as they are written. -/
def writtenMembers (c : Clause) : Members :=
  [("id", .text c.id), ("condition", .text c.comparator.name), ("value", c.target.reread.toValue)]

theorem spelling_print (c : Clause) {room : Nat} :
    (Value.object c.writtenMembers).Spelling (room + 1) (Text.bytes c.print) :=
  spelling_printRecord <| .cons ⟨rfl, spelling_text _⟩ <|
    .cons ⟨rfl, c.comparator.spelling_print⟩ <| .cons ⟨rfl, c.target.spelling_print⟩ .nil

/-- What is written for a clause describes the clause that is read. -/
theorem reread_describedBy {c : Clause} (id : c.id ≠ "") (given : c.target.Given) :
    c.reread.DescribedBy (.object c.writtenMembers) :=
  ⟨c.writtenMembers, rfl, rfl, rfl, id, rfl, given.reread⟩

theorem reread_eq_iff (c : Clause) :
    c.reread = c ↔ ∀ x, c.target = .number (.float x) → x.reread = x := by
  rw [← Target.reread_eq_iff]
  obtain ⟨id, comparator, target⟩ := c
  simp [reread]

end Clause

namespace FilterSet

/-- All questions and targets of accepted filters count as given. -/
theorem given_of_ofText {text : String} {filters : FilterSet} (h : ofText text = .ok filters) :
    ∀ c ∈ filters, c.id ≠ "" ∧ c.target.Given := by
  obtain ⟨items, -, described⟩ := (ofText_eq_ok_iff text filters).1 h
  have both : List.Forall₂ (fun c item => (c.id ≠ "" ∧ c.target.Given) ∧ c.DescribedBy item)
      filters items :=
    described.imp fun c item here => by
      have ⟨_, _, _, _, id, _, given⟩ := here
      exact ⟨⟨id, given⟩, here⟩
  exact ((List.forall₂_and_left _ _).1 both).1

/-- What is written for filters is accepted if all questions and targets count as given. -/
theorem ofText_print {filters : FilterSet}
    (given : ∀ c ∈ filters, c.id ≠ "" ∧ c.target.Given) :
    ofText filters.print = .ok (filters.map Clause.reread) := by
  refine (ofText_eq_ok_iff _ _).2
    ⟨filters.map fun c => .object c.writtenMembers, ?_, ?_⟩
  · have spelled : (Value.array (filters.map fun c => .object c.writtenMembers)).Spelling maxDepth
        (Text.bytes filters.print) := by
      refine spelling_printList ?_
      rw [List.forall₂_map_right_iff, List.forall₂_map_left_iff, List.forall₂_same]
      exact fun c _ => c.spelling_print
    have read := decode_valueAsWritten_of_spelling spelled Blank.nil Blank.nil
    rwa [List.nil_append, List.append_nil] at read
  · rw [List.forall₂_map_right_iff, List.forall₂_map_left_iff, List.forall₂_same]
    exact fun c hc => Clause.reread_describedBy (given c hc).1 (given c hc).2

/-- The document that is written for accepted filters is accepted. The filters it gives have the
same questions, comparators, texts and whole numbers, and in the place of each double the one that
is read from what is written for it. So they are the same filters exactly if all doubles in them
are read again.

What is read from what is written for a double has its sign and is at most eight doubles away, zero
only for zero. It is the same double if all the digits that are written make a whole number of at
most `2^53`, and the power of ten that goes with them is at most `10^22` in either direction. The
zero behind the point of a whole number is one of these digits: `9007199254740991.0` has seventeen
of them, which make more than `2^53`, and is read as the double before it. -/
theorem revalidation :
    (∀ (text : String) (filters : FilterSet), ofText text = .ok filters →
      ofText filters.print = .ok (filters.map Clause.reread) ∧
        (ofText filters.print = .ok filters ↔
          ∀ c ∈ filters, ∀ x, c.target = .number (.float x) → x.reread = x)) ∧
    (∀ c : Clause, c.reread.id = c.id ∧ c.reread.comparator = c.comparator ∧
      (∀ s, c.target = .text s → c.reread.target = .text s) ∧
      (∀ n fits, c.target = .number (.integer n fits) →
        c.reread.target = .number (.integer n fits)) ∧
      ∀ x, c.target = .number (.float x) → c.reread.target = .number (.float x.reread)) ∧
    ∀ x : Binary64,
      decode Decoder.value (Text.bytes (Number.float x).print) =
        .ok (.number (.float x.reread)) ∧
      x.reread.negative = x.negative ∧ (x.reread.rank = 0 ↔ x.rank = 0) ∧
      x.rank ≤ x.reread.rank + 8 ∧ x.reread.rank ≤ x.rank + 8 ∧
      ((Binary64.written x.rank).digits ≤ 2 ^ 53 →
        (Binary64.written x.rank).exponent.natAbs ≤ 22 → x.reread = x) := by
  refine ⟨fun text filters h => ?_, fun c => ⟨rfl, rfl, ?_, ?_, ?_⟩, fun x => ?_⟩
  · have again := ofText_print (given_of_ofText h)
    refine ⟨again, ?_⟩
    rw [again, Except.ok.injEq]
    have same : filters.map Clause.reread = filters.map id ↔ ∀ c ∈ filters, c.reread = c :=
      List.map_inj_left
    rw [List.map_id] at same
    simp only [same, Clause.reread_eq_iff]
  · intro s same
    simp [Clause.reread, same, Target.reread]
  · intro n fits same
    simp [Clause.reread, same, Target.reread]
  · intro x same
    simp [Clause.reread, same, Target.reread]
  · refine ⟨?_, rfl, x.reread_rank_eq_zero_iff, x.reread_near.1, x.reread_near.2,
      Binary64.reread_of_exact⟩
    have spelled : (Value.number (.float x.reread)).Spelling maxDepth
        (Text.bytes (Number.float x).print) := spelling_number (numberSpelling_float x)
    have read := decode_valueAsWritten_of_spelling spelled Blank.nil Blank.nil
    rw [List.nil_append, List.append_nil] at read
    rw [decode_value_eq, read]
    rfl

theorem ofText_eq_ok_of_toOption {text : String} {filters : FilterSet}
    (h : (ofText text).toOption = some filters) : ofText text = .ok filters := by
  cases read : ofText text with
  | error rejection => simp [read, Except.toOption] at h
  | ok found => simpa [read, Except.toOption] using h

/-- A text, a whole number and a double of one digit are read again. -/
theorem revalidation_of_tenth :
    let text := "[\x7b\"id\":\"a\",\"condition\":\"equals\",\"value\":\"\\u00e9\"\x7d," ++
      "\x7b\"id\":\"b\",\"condition\":\"less_than\",\"value\":-7\x7d," ++
      "\x7b\"id\":\"c\",\"condition\":\"greater_than\",\"value\":0.1\x7d]"
    let tenth : Binary64 := ⟨false, 4591870180066957722, by decide⟩
    let filters : FilterSet := [⟨"a", .equals, .text "é"⟩,
      ⟨"b", .lessThan, .number (.integer (-7) (by decide))⟩,
      ⟨"c", .greaterThan, .number (.float tenth)⟩]
    ofText text = .ok filters ∧ ofText filters.print = .ok filters := by
  intro text tenth filters
  have read : ofText text = .ok filters := ofText_eq_ok_of_toOption (by decide +kernel)
  have again : tenth.reread = tenth := by decide +kernel
  refine ⟨read, (revalidation.1 text filters read).2.2 ?_⟩
  simpa [filters] using again

/-- The shortest decimal of a double of sixteen digits is read as the double before it. -/
theorem revalidation_of_sixteen_digits :
    let text := "[\x7b\"id\":\"q1\",\"condition\":\"equals\",\"value\":939.31678098745616\x7d]"
    ∃ filters, ofText text = .ok filters ∧ ofText filters.print ≠ .ok filters := by
  intro text
  let x : Binary64 := ⟨false, 4651473533601868019, by decide⟩
  have read : ofText text = .ok [⟨"q1", .equals, .number (.float x)⟩] :=
    ofText_eq_ok_of_toOption (by decide +kernel)
  have other : x.reread ≠ x := by decide +kernel
  refine ⟨_, read, ?_⟩
  rw [ofText_print (given_of_ofText read)]
  simpa [Clause.reread, Target.reread] using other

end FilterSet

end FormSieve
