import FormSieve.Log
import FormSieve.Proofs.Json.Printing
import FormSieve.Proofs.Json.SingleLine
import FormSieve.Proofs.Text.Order
import Mathlib.Data.List.Count
import Mathlib.Data.List.Nodup

/-!
# What log lines say

A log line is one JSON object on one line of its own, whatever the event and the fields are. Read as
JSON it has the event, the severity, and then the given fields in the order of their names, where
fields of one name stay in the order in which they were given. Nothing else could be read from it,
so what a caller has a say in, such as a form's name, can never pass for another field or line.
-/

namespace FormSieve

open Json

namespace LogLine

/-! ## The order of fields -/

/-- Fields in the order of their names. -/
def Ascending (fields : List (String × String)) : Prop :=
  fields.Pairwise fun a b => Text.order a.1 b.1 ≠ .gt

/-- The fields of one name. -/
def named (name : String) (fields : List (String × String)) : List (String × String) :=
  fields.filter (·.1 = name)

/-- The same fields in the order of their names, where fields of one name stay in their order. -/
structure Sorts (fields sorted : List (String × String)) : Prop where
  ascending : Ascending sorted
  stable : ∀ name, named name sorted = named name fields

/-- Names that are not beyond one another are the same. -/
theorem name_eq_of_not_gt {a b : String} (h : Text.order a b ≠ .gt) (h' : Text.order b a ≠ .gt) :
    a = b := by
  rw [← Text.order_eq_iff]
  apply Std.OrientedCmp.isLE_antisymm
  · exact Ordering.isLE_iff_ne_gt.2 h
  · exact Ordering.isLE_iff_ne_gt.2 h'

section Sorts

variable {fields sorted sorted' : List (String × String)}

theorem named_cons_self (name value : String) (fields : List (String × String)) :
    named name ((name, value) :: fields) = (name, value) :: named name fields :=
  List.filter_cons_of_pos (decide_eq_true rfl)

theorem named_cons_of_ne {name other : String} (h : other ≠ name) (value : String)
    (fields : List (String × String)) :
    named name ((other, value) :: fields) = named name fields :=
  List.filter_cons_of_neg (by simpa using h)

/-- Fields of distinct names may stand in either order. -/
theorem named_swap {a b : String × String} (h : a.1 ≠ b.1) (fields : List (String × String))
    (name : String) : named name (a :: b :: fields) = named name (b :: a :: fields) := by
  obtain ⟨first, value⟩ := a
  obtain ⟨second, value'⟩ := b
  by_cases own : first = name
  · subst own
    rw [named_cons_self, named_cons_of_ne h.symm, named_cons_of_ne h.symm, named_cons_self]
  · by_cases other : second = name
    · subst other
      rw [named_cons_of_ne h, named_cons_self, named_cons_self, named_cons_of_ne h]
    · rw [named_cons_of_ne own, named_cons_of_ne other, named_cons_of_ne other,
        named_cons_of_ne own]

/-- Fields that are the same under each name are the same fields. -/
theorem perm_of_named_eq (same : ∀ name, named name sorted = named name fields) :
    sorted.Perm fields := by
  refine List.perm_iff_count.2 fun field => ?_
  have kept (l : List (String × String)) : (named field.1 l).count field = l.count field :=
    List.count_filter (by simp)
  rw [← kept sorted, ← kept fields, same field.1]

theorem Sorts.perm (h : Sorts fields sorted) : sorted.Perm fields := perm_of_named_eq h.stable

/-- Both start with a field that no other is before, and so it goes on. -/
theorem eq_of_named_eq (h : Ascending sorted) (h' : Ascending sorted')
    (same : ∀ name, named name sorted = named name sorted') : sorted = sorted' := by
  have perm := perm_of_named_eq same
  induction sorted generalizing sorted' with
  | nil => exact (List.nil_perm.1 perm).symm
  | cons field rest ih =>
      cases sorted' with
      | nil => exact absurd perm.symm (List.not_perm_nil_cons field rest)
      | cons field' rest' =>
          obtain ⟨least, ascending⟩ := List.pairwise_cons.1 h
          obtain ⟨least', ascending'⟩ := List.pairwise_cons.1 h'
          have name : field.1 = field'.1 := by
            rcases List.mem_cons.1 (perm.mem_iff.1 List.mem_cons_self) with rfl | behind'
            · rfl
            rcases List.mem_cons.1 (perm.mem_iff.2 List.mem_cons_self) with rfl | behind
            · rfl
            exact name_eq_of_not_gt (least field' behind) (least' field behind')
          obtain ⟨own, value⟩ := field
          obtain ⟨_, value'⟩ := field'
          obtain rfl : own = _ := name
          have heads := same own
          rw [named_cons_self, named_cons_self] at heads
          obtain rfl : value = value' := congrArg Prod.snd (List.cons.inj heads).1
          have tails (other : String) : named other rest = named other rest' := by
            have given := same other
            by_cases here : own = other
            · subst here
              exact (List.cons.inj heads).2
            · rwa [named_cons_of_ne here, named_cons_of_ne here] at given
          rw [ih ascending ascending' tails (perm_of_named_eq tails)]

/-- Fields have one order only. -/
theorem Sorts.unique (h : Sorts fields sorted) (h' : Sorts fields sorted') : sorted = sorted' :=
  eq_of_named_eq h.ascending h'.ascending fun name => (h.stable name).trans (h'.stable name).symm

end Sorts

theorem notAfter_trans (a b c : String × String)
    (first : decide (Text.order a.1 b.1 ≠ .gt) = true)
    (second : decide (Text.order b.1 c.1 ≠ .gt) = true) :
    decide (Text.order a.1 c.1 ≠ .gt) = true := by
  have least := Ordering.isLE_iff_ne_gt.2 (of_decide_eq_true first)
  have middle := Ordering.isLE_iff_ne_gt.2 (of_decide_eq_true second)
  exact decide_eq_true (Ordering.isLE_iff_ne_gt.1 (Std.TransCmp.isLE_trans least middle))

theorem notAfter_total (a b : String × String) :
    (decide (Text.order a.1 b.1 ≠ .gt) || decide (Text.order b.1 a.1 ≠ .gt)) = true := by
  rw [← Text.order_swap a.1 b.1]
  cases Text.order a.1 b.1 <;> rfl

theorem ascending_sortedFields (line : LogLine) : Ascending line.sortedFields :=
  (List.pairwise_mergeSort notAfter_trans notAfter_total line.fields).imp of_decide_eq_true

/-- Fields of one name stand in order already, so sorting leaves them behind one another. -/
theorem named_sortedFields (line : LogLine) (name : String) :
    named name line.sortedFields = named name line.fields := by
  have level : (named name line.fields).Pairwise
      fun a b => decide (Text.order a.1 b.1 ≠ .gt) = true := by
    refine List.pairwise_iff_forall_sublist.2 fun {a b} pair => ?_
    have hₐ := List.of_mem_filter (pair.subset List.mem_cons_self)
    have h_b := List.of_mem_filter (pair.subset (List.mem_cons_of_mem a List.mem_cons_self))
    rw [decide_eq_true_eq] at hₐ h_b
    simp [hₐ, h_b]
  have kept : (named name line.fields).Sublist line.sortedFields :=
    List.sublist_mergeSort notAfter_trans notAfter_total level List.filter_sublist
  have inside : (named name line.fields).Sublist (named name line.sortedFields) := by
    simpa only [named, List.filter_filter, Bool.and_self] using kept.filter (·.1 = name)
  have perm : line.sortedFields.Perm line.fields := List.mergeSort_perm _ _
  exact (inside.eq_of_length (perm.filter _).length_eq.symm).symm

/-- The fields of a line are sorted. -/
theorem sorts_sortedFields (line : LogLine) : Sorts line.fields line.sortedFields :=
  ⟨ascending_sortedFields line, named_sortedFields line⟩

/-- With no name given twice it does not matter in which order fields are given. -/
theorem sortedFields_of_perm {line line' : LogLine} (perm : line'.fields.Perm line.fields)
    (distinct : (line.fields.map Prod.fst).Nodup) : line'.sortedFields = line.sortedFields := by
  have sorts := sorts_sortedFields line
  have sorts' := sorts_sortedFields line'
  have same := (sorts'.perm.trans perm).trans sorts.perm.symm
  refine List.Perm.eq_of_pairwise (fun a b hₐ h_b before behind => ?_) sorts'.ascending
    sorts.ascending same
  exact List.inj_on_of_nodup_map distinct (sorts.perm.mem_iff.1 (same.mem_iff.1 hₐ))
    (sorts.perm.mem_iff.1 h_b) (name_eq_of_not_gt before behind)

/-! ## Lines as documents -/

/-- Named texts as members of an object. -/
def textMembers (members : List (String × String)) : Members :=
  members.map fun m => (m.1, .text m.2)

/-- A line is read as an object of its members. -/
theorem decode_render (line : LogLine) :
    decode valueAsWritten (Text.bytes line.render) = .ok (.object (textMembers line.members)) := by
  have spelled : (Value.object (textMembers line.members)).Spelling maxDepth
      (Text.bytes (printRecord (line.members.map fun m => (m.1, printText m.2)))) := by
    change (Value.object _).Spelling (126 + 1) _
    refine spelling_printRecord ?_
    rw [textMembers, List.forall₂_map_left_iff, List.forall₂_map_right_iff]
    exact List.forall₂_same.2 fun m _ => ⟨rfl, spelling_text m.2⟩
  have behind : Blank (Text.bytes "\n") := by
    change Blank [0x0A]
    exact List.forall_mem_singleton.2 rfl
  have read := decode_valueAsWritten_of_spelling spelled Blank.nil behind
  rwa [List.nil_append, ← Text.bytes_append] at read

/-- A line has one line break, which ends it. -/
theorem exists_render_eq (line : LogLine) :
    ∃ body, line.render = body ++ "\n" ∧ SingleLine body := by
  refine ⟨_, rfl, singleLine_printRecord fun m member => ?_⟩
  obtain ⟨m, -, rfl⟩ := List.mem_map.1 member
  exact singleLine_printText m.2

/-- A line takes one line, and all that can be read from it is one object: the event, the severity,
and the fields in the order of their names. So the order in which fields of distinct names are given
does not matter. A line about a request has two members more, which are of the request whatever the
fields say, and stand before those that the fields give under the same names. -/
theorem render_is_one_object (line : LogLine) :
    (∃ body, line.render = body ++ "\n" ∧ SingleLine body) ∧
      (∃ sorted, Sorts line.fields sorted) ∧
      (∀ sorted, Sorts line.fields sorted →
        decode valueAsWritten (Text.bytes line.render) =
          .ok (.object (textMembers
            (("event", line.event) :: ("severity", line.severity.name) :: sorted)))) ∧
      (∀ fields, fields.Perm line.fields → (line.fields.map Prod.fst).Nodup →
        LogLine.render { line with fields := fields } = line.render) ∧
      ∀ context : RequestContext, ∃ sorted,
        decode valueAsWritten
            (Text.bytes (context.line line.severity line.event line.fields).render) =
          .ok (.object (textMembers
            (("event", line.event) :: ("severity", line.severity.name) :: sorted))) ∧
        Ascending sorted ∧
        named "request_id" sorted =
          ("request_id", context.requestId) :: named "request_id" line.fields ∧
        named "form_id" sorted = ("form_id", context.formId) :: named "form_id" line.fields ∧
        ∀ name, name ≠ "request_id" → name ≠ "form_id" →
          named name sorted = named name line.fields := by
  refine ⟨exists_render_eq line, ⟨_, sorts_sortedFields line⟩, ?_, ?_, ?_⟩
  · intro sorted sorts
    rw [sorts.unique (sorts_sortedFields line)]
    exact decode_render line
  · intro fields perm distinct
    have same : LogLine.sortedFields { line with fields := fields } = line.sortedFields :=
      sortedFields_of_perm perm distinct
    rw [render, members, same]
    rfl
  · intro context
    let about := context.line line.severity line.event line.fields
    have given : about.fields =
        ("request_id", context.requestId) :: ("form_id", context.formId) :: line.fields := rfl
    refine ⟨about.sortedFields, decode_render about, ascending_sortedFields about, ?_, ?_, ?_⟩
    · rw [named_sortedFields, given, named_cons_self, named_cons_of_ne (by decide)]
    · rw [named_sortedFields, given, named_cons_of_ne (by decide), named_cons_self]
    · intro name request form
      rw [named_sortedFields, given, named_cons_of_ne request.symm, named_cons_of_ne form.symm]

/-- Two fields the other way around, one of them with a text that would end its line and open
another object. -/
theorem render_is_one_object_of_swapped :
    let forged := ("message", "\x22\x7d\n\x7b\x22event\x22:\x22")
    let line : LogLine := ⟨.error, "FETCH", [("zebra", "1"), forged]⟩
    Sorts line.fields [forged, ("zebra", "1")] ∧
      decode valueAsWritten (Text.bytes line.render) = .ok (.object
        (textMembers [("event", "FETCH"), ("severity", "ERROR"), forged, ("zebra", "1")])) ∧
      LogLine.render { line with fields := [forged, ("zebra", "1")] } = line.render := by
  intro forged line
  obtain ⟨-, -, reads, order, -⟩ := render_is_one_object line
  have sorts : Sorts line.fields [forged, ("zebra", "1")] :=
    ⟨List.pairwise_pair.2 (by decide), named_swap (by decide) []⟩
  exact ⟨sorts, reads _ sorts, order _ (.swap _ _ _) (by decide)⟩

end LogLine

end FormSieve
