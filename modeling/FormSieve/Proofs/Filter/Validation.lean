import FormSieve.Filter.Validation
import FormSieve.Proofs.Json.Written
import FormSieve.Proofs.Number.Rounding
import Mathlib.Data.List.Forall2

/-!
# What filters are accepted

The grammar of filters is stated over documents as they are written, where an object has all its
members in order: the last member of a name counts. A filter text is accepted if each item of its
list describes a clause, and the clauses are then exactly the ones described. Otherwise the first
item that describes none is blamed, with the first thing that is wrong with it; what follows it is
not looked at.
-/

namespace FormSieve

open Json

/-- A target that counts as given: text that is not empty and numbers other than the zeros. -/
def Target.Given : Target → Prop
  | .text s => s ≠ ""
  | .number (.integer n _) => n ≠ 0
  | .number (.float x) => Number.float x ≠ signedZero false ∧ Number.float x ≠ signedZero true

namespace Target

theorem float_eq_signedZero_iff (x : Binary64) :
    (Number.float x = signedZero false ∨ Number.float x = signedZero true) ↔ x.rank = 0 := by
  obtain ⟨negative, rank, finite⟩ := x
  cases negative <;> simp [signedZero]

theorem isFalsy_integer_iff (n : Int) (fits : -2 ^ 63 ≤ n ∧ n < 2 ^ 64) :
    (number (.integer n fits)).isFalsy = true ↔ n = 0 := by
  simp [isFalsy, Number.signedRank_integer_eq_zero_iff]

theorem isFalsy_float_iff (x : Binary64) :
    (number (.float x)).isFalsy = true ↔
      Number.float x = signedZero false ∨ Number.float x = signedZero true := by
  rw [float_eq_signedZero_iff]
  simp [isFalsy, Number.signedRank_float_eq_zero_iff]

theorem isFalsy_eq_false_iff (t : Target) : t.isFalsy = false ↔ t.Given := by
  cases t with
  | text s => simp [isFalsy, Given]
  | number n =>
      cases n with
      | integer n fits => rw [← Bool.not_eq_true, isFalsy_integer_iff, Given]
      | float x => rw [← Bool.not_eq_true, isFalsy_float_iff, not_or, Given]

theorem ofValue?_eq_some_iff (v : Value) (t : Target) : ofValue? v = some t ↔ v = t.toValue := by
  constructor
  · intro h
    cases v <;> simp only [ofValue?, reduceCtorEq, Option.some.injEq] at h <;> rw [← h, toValue]
  · rintro rfl
    exact ofValue?_toValue t

@[simp] theorem canonical_eq_toValue_iff (v : Value) (t : Target) :
    v.canonical = t.toValue ↔ v = t.toValue := by
  cases v <;> cases t <;> simp [Value.canonical, toValue]

end Target

@[simp] theorem Json.Value.canonical_eq_text_iff (v : Value) (s : String) :
    v.canonical = .text s ↔ v = .text s :=
  Target.canonical_eq_toValue_iff v (.text s)

namespace Clause

/-- An item, as it is written, that describes a clause: an object whose last members of the three
names say what the clause says, and whose question and target count as given. -/
def DescribedBy (c : Clause) (item : Value) : Prop :=
  ∃ members, item = .object members ∧
    Members.last? "condition" members = some (.text c.comparator.name) ∧
    Members.last? "id" members = some (.text c.id) ∧ c.id ≠ "" ∧
    Members.last? "value" members = some c.target.toValue ∧ c.target.Given

/-- The first thing that is wrong with an item as it is written. Each later one is only looked
for if the earlier ones are in order. -/
inductive FirstFlaw : Value → ClauseFlaw → Prop
  | notAnObject {item : Value} (shape : ∀ members, item ≠ .object members) :
      FirstFlaw item .notAnObject
  | unknownComparator {members : Members}
      (condition : ∀ c : Comparator, Members.last? "condition" members ≠ some (.text c.name)) :
      FirstFlaw (.object members) .unknownComparator
  | badId {members : Members} {c : Comparator}
      (condition : Members.last? "condition" members = some (.text c.name))
      (id : ∀ s, s ≠ "" → Members.last? "id" members ≠ some (.text s)) :
      FirstFlaw (.object members) .badId
  | badTarget {members : Members} {c : Comparator} {s : String}
      (condition : Members.last? "condition" members = some (.text c.name))
      (id : Members.last? "id" members = some (.text s)) (given : s ≠ "")
      (value : ∀ t : Target, t.Given → Members.last? "value" members ≠ some t.toValue) :
      FirstFlaw (.object members) .badTarget

/-! ## The members of a clause -/

theorem comparatorOf?_eq_some_iff (ms : Members) (c : Comparator) :
    comparatorOf? ms = some c ↔ ms.find? "condition" = some (.text c.name) := by
  rw [comparatorOf?]
  split
  · next name h =>
      rw [h, Comparator.ofName?_eq_some_iff, Option.some_inj, Value.text.injEq, eq_comm]
  · next other => exact iff_of_false (by simp) fun h => other _ h

theorem idOf?_eq_some_iff (ms : Members) (s : String) :
    idOf? ms = some s ↔ ms.find? "id" = some (.text s) ∧ s ≠ "" := by
  rw [idOf?]
  split
  · next id h =>
      rw [h, Option.some_inj, Value.text.injEq, Option.ite_none_left_eq_some, Option.some_inj,
        String.isEmpty_iff]
      constructor
      · rintro ⟨given, rfl⟩
        exact ⟨rfl, given⟩
      · rintro ⟨rfl, given⟩
        exact ⟨given, rfl⟩
  · next other => exact iff_of_false (by simp) fun h => other _ h.1

theorem targetOf?_eq_some_iff (ms : Members) (t : Target) :
    targetOf? ms = some t ↔ ms.find? "value" = some t.toValue ∧ t.Given := by
  have found : (ms.find? "value").bind Target.ofValue? = some t ↔
      ms.find? "value" = some t.toValue := by
    rw [Option.bind_eq_some_iff]
    simp [Target.ofValue?_eq_some_iff]
  rw [← found, targetOf?]
  cases (ms.find? "value").bind Target.ofValue? with
  | none => simp
  | some target =>
      simp only [Option.ite_none_left_eq_some, Option.some_inj, Bool.not_eq_true,
        Target.isFalsy_eq_false_iff]
      constructor
      · rintro ⟨given, rfl⟩
        exact ⟨rfl, given⟩
      · rintro ⟨rfl, given⟩
        exact ⟨given, rfl⟩

/-! ## The clause of an item -/

section Written

variable (ms : Members)

/-- Sorting the members of an item hides none of what a clause is made from. -/
theorem find?_eq_toValue_iff (name : String) (t : Target) :
    (Members.ofWritten (canonicalMembers ms)).find? name = some t.toValue ↔
      Members.last? name ms = some t.toValue := by
  rw [Members.find?_canonical]
  simp

theorem find?_eq_text_iff (name s : String) :
    (Members.ofWritten (canonicalMembers ms)).find? name = some (.text s) ↔
      Members.last? name ms = some (.text s) :=
  find?_eq_toValue_iff ms name (.text s)

theorem comparatorOf?_written (c : Comparator) :
    comparatorOf? (Members.ofWritten (canonicalMembers ms)) = some c ↔
      Members.last? "condition" ms = some (.text c.name) := by
  rw [comparatorOf?_eq_some_iff, find?_eq_text_iff]

theorem idOf?_written (s : String) :
    idOf? (Members.ofWritten (canonicalMembers ms)) = some s ↔
      Members.last? "id" ms = some (.text s) ∧ s ≠ "" := by
  rw [idOf?_eq_some_iff, find?_eq_text_iff]

theorem targetOf?_written (t : Target) :
    targetOf? (Members.ofWritten (canonicalMembers ms)) = some t ↔
      Members.last? "value" ms = some t.toValue ∧ t.Given := by
  rw [targetOf?_eq_some_iff, find?_eq_toValue_iff]

end Written

theorem ofValue_object_eq_ok_iff (ms : Members) (c : Clause) :
    ofValue (.object ms) = .ok c ↔
      comparatorOf? ms = some c.comparator ∧ idOf? ms = some c.id ∧
        targetOf? ms = some c.target := by
  obtain ⟨id, comparator, target⟩ := c
  simp only [ofValue]
  cases comparatorOf? ms with
  | none => simp
  | some comparator =>
      cases idOf? ms with
      | none => simp
      | some id =>
          cases targetOf? ms with
          | none => simp
          | some target => simp [and_left_comm]

theorem ofValue_canonical_eq_ok_iff (item : Value) (c : Clause) :
    ofValue item.canonical = .ok c ↔ c.DescribedBy item := by
  cases item with
  | object ms =>
      rw [Value.canonical_object, ofValue_object_eq_ok_iff, comparatorOf?_written, idOf?_written,
        targetOf?_written]
      simp [DescribedBy, and_assoc]
  | _ => simp [ofValue, Value.canonical, DescribedBy]

theorem firstFlaw_of_ofValue_canonical {item : Value} {flaw : ClauseFlaw}
    (h : ofValue item.canonical = .error flaw) : FirstFlaw item flaw := by
  cases item with
  | object ms =>
      rw [Value.canonical_object] at h
      simp only [ofValue] at h
      cases condition : comparatorOf? (Members.ofWritten (canonicalMembers ms)) with
      | none =>
          obtain rfl : .unknownComparator = flaw := by simpa [condition] using h
          refine .unknownComparator fun c hc => ?_
          simp [(comparatorOf?_written ms c).2 hc] at condition
      | some c =>
          cases id : idOf? (Members.ofWritten (canonicalMembers ms)) with
          | none =>
              obtain rfl : .badId = flaw := by simpa [condition, id] using h
              refine .badId ((comparatorOf?_written ms c).1 condition) fun s given hs => ?_
              simp [(idOf?_written ms s).2 ⟨hs, given⟩] at id
          | some s =>
              cases value : targetOf? (Members.ofWritten (canonicalMembers ms)) with
              | none =>
                  obtain rfl : .badTarget = flaw := by simpa [condition, id, value] using h
                  obtain ⟨hs, given⟩ := (idOf?_written ms s).1 id
                  refine .badTarget ((comparatorOf?_written ms c).1 condition) hs given
                    fun t given ht => ?_
                  simp [(targetOf?_written ms t).2 ⟨ht, given⟩] at value
              | some t => simp [condition, id, value] at h
  | _ =>
      obtain rfl : .notAnObject = flaw := by simpa [ofValue, Value.canonical] using h
      exact .notAnObject (by simp)

theorem FirstFlaw.ofValue_canonical {item : Value} {flaw : ClauseFlaw} (h : FirstFlaw item flaw) :
    ofValue item.canonical = .error flaw := by
  cases h with
  | notAnObject shape =>
      cases item with
      | object ms => exact absurd rfl (shape ms)
      | _ => rfl
  | @unknownComparator ms condition =>
      have unknown : comparatorOf? (Members.ofWritten (canonicalMembers ms)) = none :=
        Option.eq_none_iff_forall_ne_some.2 fun c hc =>
          condition c ((comparatorOf?_written ms c).1 hc)
      simp [ofValue, unknown]
  | @badId ms c condition id =>
      have unnamed : idOf? (Members.ofWritten (canonicalMembers ms)) = none :=
        Option.eq_none_iff_forall_ne_some.2 fun s hs =>
          id s ((idOf?_written ms s).1 hs).2 ((idOf?_written ms s).1 hs).1
      simp [ofValue, (comparatorOf?_written ms c).2 condition, unnamed]
  | @badTarget ms c s condition id given value =>
      have untargeted : targetOf? (Members.ofWritten (canonicalMembers ms)) = none :=
        Option.eq_none_iff_forall_ne_some.2 fun t ht =>
          value t ((targetOf?_written ms t).1 ht).2 ((targetOf?_written ms t).1 ht).1
      simp [ofValue, (comparatorOf?_written ms c).2 condition, (idOf?_written ms s).2 ⟨id, given⟩,
        untargeted]

theorem ofValue_canonical_eq_error_iff (item : Value) (flaw : ClauseFlaw) :
    ofValue item.canonical = .error flaw ↔ FirstFlaw item flaw :=
  ⟨firstFlaw_of_ofValue_canonical, FirstFlaw.ofValue_canonical⟩

/-- An item with a flaw describes no clause. -/
theorem FirstFlaw.not_describedBy {item : Value} {flaw : ClauseFlaw} (h : FirstFlaw item flaw)
    (c : Clause) : ¬c.DescribedBy item := by
  rw [← ofValue_canonical_eq_ok_iff, h.ofValue_canonical]
  simp

end Clause

/-! ## The clauses of a list -/

namespace FilterSet

theorem ofValues_cons_eq_ok_iff (index : Nat) (v : Value) (vs : List Value) (filters : FilterSet) :
    ofValues index (v :: vs) = .ok filters ↔
      ∃ c clauses, Clause.ofValue v = .ok c ∧ ofValues (index + 1) vs = .ok clauses ∧
        filters = c :: clauses := by
  rw [ofValues]
  cases Clause.ofValue v with
  | error flaw => simp
  | ok c =>
      cases ofValues (index + 1) vs with
      | error rejection => simp
      | ok clauses => simp [eq_comm]

theorem ofValues_cons_eq_error_iff (index : Nat) (v : Value) (vs : List Value)
    (rejection : Rejection) :
    ofValues index (v :: vs) = .error rejection ↔
      (∃ flaw, Clause.ofValue v = .error flaw ∧ rejection = .invalidClause index flaw) ∨
        ∃ c, Clause.ofValue v = .ok c ∧ ofValues (index + 1) vs = .error rejection := by
  rw [ofValues]
  cases Clause.ofValue v with
  | error flaw => simp [eq_comm]
  | ok c => cases ofValues (index + 1) vs <;> simp

theorem ofValues_eq_ok_iff (index : Nat) (items : List Value) (filters : FilterSet) :
    ofValues index (items.map Value.canonical) = .ok filters ↔
      List.Forall₂ Clause.DescribedBy filters items := by
  induction items generalizing index filters with
  | nil => simp [ofValues, eq_comm]
  | cons item items ih =>
      rw [List.map_cons, ofValues_cons_eq_ok_iff, List.forall₂_cons_right_iff]
      simp only [Clause.ofValue_canonical_eq_ok_iff, ih]

/-- A list of items is rejected for the first one that describes no clause. -/
theorem ofValues_eq_error_iff (index : Nat) (items : List Value) (rejection : Rejection) :
    ofValues index (items.map Value.canonical) = .error rejection ↔
      ∃ before bad after flaw, items = before ++ bad :: after ∧
        (∀ item ∈ before, ∃ c : Clause, c.DescribedBy item) ∧ Clause.FirstFlaw bad flaw ∧
        rejection = .invalidClause (index + before.length) flaw := by
  induction items generalizing index with
  | nil => simp [ofValues]
  | cons item items ih =>
      rw [List.map_cons, ofValues_cons_eq_error_iff]
      simp only [Clause.ofValue_canonical_eq_ok_iff, Clause.ofValue_canonical_eq_error_iff, ih]
      constructor
      · rintro (⟨flaw, first, rfl⟩ | ⟨c, hc, before, bad, after, flaw, rfl, good, first, rfl⟩)
        · exact ⟨[], item, items, flaw, rfl, by simp, first, rfl⟩
        · refine ⟨item :: before, bad, after, flaw, rfl, ?_, first, ?_⟩
          · simpa using And.intro ⟨c, hc⟩ good
          · rw [List.length_cons, Nat.add_assoc, Nat.add_comm 1]
      · rintro ⟨before, bad, after, flaw, split, good, first, rfl⟩
        cases before with
        | nil =>
            obtain ⟨rfl, rfl⟩ := List.cons_eq_cons.1 split
            exact .inl ⟨flaw, first, rfl⟩
        | cons head before =>
            obtain ⟨rfl, rfl⟩ := List.cons_eq_cons.1 split
            obtain ⟨c, hc⟩ := good _ (List.mem_cons_self ..)
            refine .inr ⟨c, hc, before, bad, after, flaw, rfl, ?_, first, ?_⟩
            · exact fun item hitem => good item (List.mem_cons_of_mem _ hitem)
            · rw [List.length_cons, Nat.add_assoc, Nat.add_comm 1]

/-! ## Documents and texts -/

theorem ofValue_canonical_array (items : List Value) :
    ofValue (Value.array items).canonical = ofValues 0 (items.map Value.canonical) := by
  rw [Value.canonical_array, ofValue]

theorem ofValue_canonical_of_not_array {document : Value}
    (h : ∀ items, document ≠ .array items) :
    ofValue document.canonical = .error .notAnArray := by
  cases document with
  | array items => exact absurd rfl (h items)
  | _ => rfl

/-- A document gives filters if it is a list all of whose items describe clauses. -/
theorem ofValue_canonical_eq_ok_iff (document : Value) (filters : FilterSet) :
    ofValue document.canonical = .ok filters ↔
      ∃ items, document = .array items ∧ List.Forall₂ Clause.DescribedBy filters items := by
  by_cases list : ∃ items, document = .array items
  · obtain ⟨items, rfl⟩ := list
    rw [ofValue_canonical_array, ofValues_eq_ok_iff]
    simp
  · have other : ∀ items, document ≠ .array items := fun items h => list ⟨items, h⟩
    simp [ofValue_canonical_of_not_array other, other]

theorem ofValue_canonical_eq_error_iff (document : Value) (rejection : Rejection) :
    ofValue document.canonical = .error rejection ↔
      ((∀ items, document ≠ .array items) ∧ rejection = .notAnArray) ∨
        ∃ before bad after flaw, document = .array (before ++ bad :: after) ∧
          (∀ item ∈ before, ∃ c : Clause, c.DescribedBy item) ∧ Clause.FirstFlaw bad flaw ∧
          rejection = .invalidClause before.length flaw := by
  by_cases list : ∃ items, document = .array items
  · obtain ⟨items, rfl⟩ := list
    rw [ofValue_canonical_array, ofValues_eq_error_iff]
    simp
  · have other : ∀ items, document ≠ .array items := fun items h => list ⟨items, h⟩
    simp [ofValue_canonical_of_not_array other, other, eq_comm]

/-- The filters of a text depend on how it is written only through the document it is. -/
theorem ofText_eq_ofValue_canonical (text : String) :
    ofText text =
      match decode valueAsWritten (Text.bytes text) with
      | .error refusal => .error (.malformed refusal.message)
      | .ok document => ofValue document.canonical := by
  rw [ofText, decode_value_eq]
  cases decode valueAsWritten (Text.bytes text) <;> rfl

theorem ofText_eq_ok_iff (text : String) (filters : FilterSet) :
    ofText text = .ok filters ↔
      ∃ items, decode valueAsWritten (Text.bytes text) = .ok (.array items) ∧
        List.Forall₂ Clause.DescribedBy filters items := by
  rw [ofText_eq_ofValue_canonical]
  cases decode valueAsWritten (Text.bytes text) with
  | error refusal => simp
  | ok document => simp [ofValue_canonical_eq_ok_iff]

theorem ofText_eq_error_iff (text : String) (rejection : Rejection) :
    ofText text = .error rejection ↔
      (∃ refusal, decode valueAsWritten (Text.bytes text) = .error refusal ∧
        rejection = .malformed refusal.message) ∨
      (∃ document, decode valueAsWritten (Text.bytes text) = .ok document ∧
        (∀ items, document ≠ .array items) ∧ rejection = .notAnArray) ∨
      ∃ before bad after flaw,
        decode valueAsWritten (Text.bytes text) = .ok (.array (before ++ bad :: after)) ∧
        (∀ item ∈ before, ∃ c : Clause, c.DescribedBy item) ∧ Clause.FirstFlaw bad flaw ∧
        rejection = .invalidClause before.length flaw := by
  rw [ofText_eq_ofValue_canonical]
  cases decode valueAsWritten (Text.bytes text) with
  | error refusal => simp [eq_comm]
  | ok document => simp [ofValue_canonical_eq_error_iff]

/-- A text gives filters if it is a list all of whose items describe clauses, namely those
clauses. If not, it is rejected as no document, with the words of the reader, as a document other
than a list, or for the first item that describes no clause and the first flaw of that item. -/
theorem ofText_characterized (text : String) :
    (∀ message, ofText text = .error (.malformed message) ↔
        ∃ refusal, decode Decoder.value (Text.bytes text) = .error refusal ∧
          message = refusal.message) ∧
      (ofText text = .error .notAnArray ↔
        ∃ document, decode valueAsWritten (Text.bytes text) = .ok document ∧
          ∀ items, document ≠ .array items) ∧
      (∀ filters, ofText text = .ok filters ↔
        ∃ items, decode valueAsWritten (Text.bytes text) = .ok (.array items) ∧
          List.Forall₂ Clause.DescribedBy filters items) ∧
      (∀ index flaw, ofText text = .error (.invalidClause index flaw) ↔
        ∃ before bad after,
          decode valueAsWritten (Text.bytes text) = .ok (.array (before ++ bad :: after)) ∧
          before.length = index ∧ (∀ item ∈ before, ∃ c : Clause, c.DescribedBy item) ∧
          (∀ c : Clause, ¬c.DescribedBy bad) ∧ Clause.FirstFlaw bad flaw) ∧
      ofText text ≠ .error .missing ∧ (∀ given, ofText text ≠ .error (.invalidLimit given)) ∧
      decode Decoder.value (Text.bytes text) =
        (decode valueAsWritten (Text.bytes text)).map Value.canonical ∧
      (∀ n fits, (Target.number (.integer n fits)).isFalsy = true ↔ n = 0) ∧
      (∀ x, (Target.number (.float x)).isFalsy = true ↔
        Number.float x = signedZero false ∨ Number.float x = signedZero true) := by
  refine ⟨?_, ?_, ofText_eq_ok_iff text, ?_, ?_, ?_, decode_value_eq _,
    Target.isFalsy_integer_iff, Target.isFalsy_float_iff⟩
  · intro message
    rw [ofText_eq_error_iff, decode_value_eq]
    cases decode valueAsWritten (Text.bytes text) <;> simp [Except.map]
  · rw [ofText_eq_error_iff]
    simp
  · intro index flaw
    rw [ofText_eq_error_iff]
    constructor
    · rintro (⟨_, _, ⟨⟩⟩ | ⟨_, _, _, ⟨⟩⟩ | ⟨before, bad, after, flaw, read, good, first, ⟨⟩⟩)
      exact ⟨before, bad, after, read, rfl, good, fun c => first.not_describedBy c, first⟩
    · rintro ⟨before, bad, after, read, rfl, good, -, first⟩
      exact .inr (.inr ⟨before, bad, after, flaw, read, good, first, rfl⟩)
  · rw [ne_eq, ofText_eq_error_iff]
    simp
  · intro given
    rw [ne_eq, ofText_eq_error_iff]
    simp

end FilterSet

end FormSieve
