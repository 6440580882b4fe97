import FormSieve.Proofs.Json.Printing
import FormSieve.Proofs.Json.Records
import FormSieve.Submission.Page

/-!
# Submissions as values

What is written for an answer or a submission is the document of a value, its tree. Conversely an
answer is made from a value in two ways: from the members as a document has them, in which no
field may be given twice, and from members in ascending order. The first way is what the decoder
does, and it comes to the second one on the canonical value. The decoder refuses no value without
repeated members that the second way accepts.
-/

namespace FormSieve

open Json

namespace Answer

/-- The names with a meaning. -/
def fieldNames : List String := ["id", "name", "type", "value"]

/-- The members of an answer as they are written. -/
def treeMembers (a : Answer) : Members :=
  [("id", .text a.id), ("name", .text a.name)] ++ (a.kind.toList.map fun k => ("type", .text k)) ++
    ("value", a.value) :: a.extra

/-- The answer as a value. -/
def tree (a : Answer) : Value := .object a.treeMembers

theorem print_eq_print_tree (a : Answer) : a.print = a.tree.print := by
  obtain ⟨id, name, kind, value, extra⟩ := a
  cases kind <;> rfl

/-! ## What the decoder does -/

/-- How an answer is read from its fields. -/
def fields : Decoder.Fields Draft Answer :=
  { record := "SubmissionComponent", empty := {}, member := member, finish := finish }

/-- What becomes of the fields read so far when one more member comes. -/
def step (draft : Draft) (m : String × Value) : Option Draft :=
  (takeField "id" Value.asText draft.id m).bind fun id =>
    (takeField "name" Value.asText draft.name m).bind fun name =>
      (takeField "type" (Value.asOptional Value.asText) draft.kind m).bind fun kind =>
        (takeField "value" (fun v => some v.canonical) draft.value m).map fun value =>
          ⟨id, name, kind, value, takeExtra fieldNames draft.extra m⟩

/-- The answer that a value, as it is written, describes. -/
def ofWritten? : Value → Option Answer := Value.asRecord (fields.ofMembers step) fun _ => none

theorem member_follows (room : Nat) (draft : Draft) (name : String) (bs : Bytes) :
    (member room draft name bs).Follows (memberValue (valueAsWritten room) bs)
      fun v => step draft (name, v) := by
  rw [member]
  split_ifs with id name' kind value
  · subst id
    refine field_follows .text (fun o => { draft with id := o }) (fun v => ?_) room bs
    simp [step, takeField_other, takeExtra, fieldNames, bind_some_eq_map]
  · subst name'
    refine field_follows .text (fun o => { draft with name := o }) (fun v => ?_) room bs
    simp [step, takeField_other, takeExtra, fieldNames, bind_some_eq_map]
  · subst kind
    refine field_follows (.optional .text) (fun o => { draft with kind := o }) (fun v => ?_) room bs
    simp [step, takeField_other, takeExtra, fieldNames, bind_some_eq_map]
  · subst value
    refine field_follows .value (fun o => { draft with value := o }) (fun v => ?_) room bs
    simp [step, takeField_other, takeExtra, fieldNames]
  · refine extraField_follows (fun ms => { draft with extra := ms }) (fun v => ?_) room bs
    simp [step, takeField_other, takeExtra, fieldNames, id, name', kind, value]

theorem decoder_interprets : decoder.Interprets ofWritten? := by
  intro room bs
  rw [← outline_all]
  exact record_follows (fun room draft name bs _ => member_follows room draft name bs)
    (by simp) (fun _ _ => rfl) (by rintro read ⟨⟩) room bs

/-- The fields are read independently of each other. -/
theorem foldlM_step (ms : Members) (draft : Draft) :
    ms.foldlM step draft =
      (ms.foldlM (takeField "id" Value.asText) draft.id).bind fun id =>
        (ms.foldlM (takeField "name" Value.asText) draft.name).bind fun name =>
          (ms.foldlM (takeField "type" (Value.asOptional Value.asText)) draft.kind).bind
            fun kind =>
              (ms.foldlM (takeField "value" fun v => some v.canonical) draft.value).map
                fun value =>
                  ⟨id, name, kind, value, ms.foldl (takeExtra fieldNames) draft.extra⟩ := by
  induction ms generalizing draft with
  | nil => rfl
  | cons m ms ih =>
      simp only [List.foldlM_cons, List.foldl_cons, step]
      cases takeField "id" Value.asText draft.id m <;>
        cases takeField "name" Value.asText draft.name m <;>
        cases takeField "type" (Value.asOptional Value.asText) draft.kind m <;>
        cases takeField "value" (fun v => some v.canonical) draft.value m <;>
        simp [ih]

/-! ## Members in ascending order -/

/-- The answer that members in ascending order describe. -/
def ofMembers? (ms : Members) : Option Answer :=
  (ifGiven Value.asText (ms.find? "id")).bind fun id =>
    (ifGiven Value.asText (ms.find? "name")).bind fun name =>
      (ifGiven (Value.asOptional Value.asText) (ms.find? "type")).bind fun kind =>
        id.map fun id =>
          ⟨id, name.getD "", kind.getD none, (ms.find? "value").getD .null,
            ms.filter (·.1 ∉ fieldNames)⟩

/-- The answer that a value with members in ascending order describes. -/
def ofSorted? : Value → Option Answer
  | .object ms => ofMembers? ms
  | _ => none

theorem ofMembers_eq (ms : Members) :
    fields.ofMembers step ms =
      if ∀ name ∈ fieldNames, (Members.names ms).count name ≤ 1 then
        ofSorted? (Value.object ms).canonical
      else none := by
  rw [Decoder.Fields.ofMembers, foldlM_step]
  simp only [fields, foldlM_takeField, foldl_takeExtra, Value.canonical_object, ofSorted?,
    ofMembers?, Members.find?_canonical, ifGiven_map_canonical Value.asText_canonical,
    ifGiven_map_canonical (Value.asOptional_canonical Value.asText_canonical)]
  have value : ifGiven (fun v : Value => some v.canonical) (Members.last? "value" ms) =
      some ((Members.last? "value" ms).map Value.canonical) := by
    cases Members.last? "value" ms <;> rfl
  by_cases once : ∀ name ∈ fieldNames, (Members.names ms).count name ≤ 1
  · rw [if_pos once, if_pos (once "id" (by simp [fieldNames])),
      if_pos (once "name" (by simp [fieldNames])), if_pos (once "type" (by simp [fieldNames])),
      if_pos (once "value" (by simp [fieldNames])), value]
    have finished : ∀ (id name : Option String) kind value extra,
        (finish ⟨id, name, kind, value, extra⟩).toOption =
          id.map fun id => ⟨id, name.getD "", kind.getD none, value.getD .null, extra⟩ := by
      intro id name kind value extra
      cases id <;> rfl
    simp only [Option.bind_assoc, Option.map_some, Option.bind_some, finished]
  · have missed : ¬((Members.names ms).count "id" ≤ 1 ∧ (Members.names ms).count "name" ≤ 1 ∧
        (Members.names ms).count "type" ≤ 1 ∧ (Members.names ms).count "value" ≤ 1) := by
      simpa [fieldNames] using once
    rw [if_neg once]
    split_ifs with id name kind value
    · exact absurd ⟨id, name, kind, value⟩ missed
    all_goals simp

/-- What the decoder makes of a value is what the canonical value describes. -/
theorem ofSorted?_of_ofWritten? {v : Value} {a : Answer} (h : ofWritten? v = some a) :
    ofSorted? v.canonical = some a := by
  cases v with
  | object ms =>
      rw [ofWritten?, Value.asRecord, ofMembers_eq] at h
      split at h
      · exact h
      · cases h
  | _ => cases h

/-- If no member is repeated, the decoder accepts whatever the canonical value describes. -/
theorem ofWritten?_of_distinct {v : Value} (h : v.Distinct) :
    ofWritten? v = ofSorted? v.canonical := by
  cases v with
  | object ms =>
      have once := List.nodup_iff_count.1 (Value.distinct_object_iff.1 h).1
      rw [ofWritten?, Value.asRecord, ofMembers_eq, if_pos fun name _ => once name]
  | _ => rfl

end Answer

namespace Submission

/-- The names with a meaning. -/
def fieldNames : List String := ["questions"]

/-- The members of a submission as they are written. -/
def treeMembers (s : Submission) : Members :=
  ("questions", .array (s.answers.map Answer.tree)) :: s.extra

/-- The submission as a value. -/
def tree (s : Submission) : Value := .object s.treeMembers

theorem print_eq_print_tree (s : Submission) : s.print = s.tree.print := by
  rw [print, tree, treeMembers, Value.print, printMembers, Value.print, printAll_eq_map,
    List.map_map, funext Answer.print_eq_print_tree]
  rfl

/-! ## What the decoder does -/

/-- How a submission is read from its fields. -/
def fields : Decoder.Fields Draft Submission :=
  { record := "Submission", empty := {}, member := member,
    finish := fun draft => .ok ⟨draft.answers.getD [], draft.extra⟩ }

/-- What becomes of the fields read so far when one more member comes. -/
def step (draft : Draft) (m : String × Value) : Option Draft :=
  (takeField "questions" (Value.asList Answer.ofWritten?) draft.answers m).map fun answers =>
    ⟨answers, takeExtra fieldNames draft.extra m⟩

/-- The submission that a value, as it is written, describes. -/
def ofWritten? : Value → Option Submission := Value.asRecord (fields.ofMembers step) fun _ => none

theorem member_follows (room : Nat) (draft : Draft) (name : String) (bs : Bytes) :
    (member room draft name bs).Follows (memberValue (valueAsWritten room) bs)
      fun v => step draft (name, v) := by
  rw [member]
  split_ifs with questions
  · subst questions
    refine field_follows (.list Answer.decoder_interprets) (fun o => { draft with answers := o })
      (fun v => ?_) room bs
    simp [step, takeExtra, fieldNames]
  · refine extraField_follows (fun ms => { draft with extra := ms }) (fun v => ?_) room bs
    simp [step, takeField_other, takeExtra, fieldNames, questions]

theorem decoder_interprets : decoder.Interprets ofWritten? := by
  intro room bs
  rw [← outline_all]
  exact record_follows (fun room draft name bs _ => member_follows room draft name bs)
    (by simp) (fun _ _ => rfl) (by rintro read ⟨⟩) room bs

theorem foldlM_step (ms : Members) (draft : Draft) :
    ms.foldlM step draft =
      (ms.foldlM (takeField "questions" (Value.asList Answer.ofWritten?)) draft.answers).map
        fun answers => ⟨answers, ms.foldl (takeExtra fieldNames) draft.extra⟩ := by
  induction ms generalizing draft with
  | nil => rfl
  | cons m ms ih =>
      simp only [List.foldlM_cons, List.foldl_cons, step]
      cases takeField "questions" (Value.asList Answer.ofWritten?) draft.answers m <;> simp [ih]

/-! ## Members in ascending order -/

/-- The submission that members in ascending order describe. -/
def ofMembers? (ms : Members) : Option Submission :=
  (ifGiven (Value.asList Answer.ofSorted?) (ms.find? "questions")).map fun answers =>
    ⟨answers.getD [], ms.filter (·.1 ∉ fieldNames)⟩

/-- The submission that a value with members in ascending order describes. -/
def ofSorted? : Value → Option Submission
  | .object ms => ofMembers? ms
  | _ => none

theorem ofMembers_eq (ms : Members) :
    fields.ofMembers step ms =
      if (Members.names ms).count "questions" ≤ 1 then
        (ifGiven (Value.asList Answer.ofWritten?) (ms.last? "questions")).map fun answers =>
          ⟨answers.getD [], (Members.ofWritten (canonicalMembers ms)).filter (·.1 ∉ fieldNames)⟩
      else none := by
  rw [Decoder.Fields.ofMembers, foldlM_step]
  simp only [fields, foldlM_takeField, foldl_takeExtra]
  split
  · cases ifGiven (Value.asList Answer.ofWritten?) (Members.last? "questions" ms) <;> rfl
  · rfl

/-- What the decoder makes of a value is what the canonical value describes. -/
theorem ofSorted?_of_ofWritten? {v : Value} {s : Submission} (h : ofWritten? v = some s) :
    ofSorted? v.canonical = some s := by
  cases v with
  | object ms =>
      rw [ofWritten?, Value.asRecord, ofMembers_eq] at h
      rw [Value.canonical_object, ofSorted?, ofMembers?, Members.find?_canonical]
      obtain ⟨-, h⟩ := Option.ite_none_right_eq_some.1 h
      obtain ⟨answers, given, rfl⟩ := Option.map_eq_some_iff.1 h
      refine Option.map_eq_some_iff.2 ⟨answers, ?_, rfl⟩
      cases last : Members.last? "questions" ms with
      | none => rwa [last] at given
      | some v =>
          rw [last] at given
          obtain ⟨as, made, rfl⟩ := Option.map_eq_some_iff.1 given
          exact Option.map_eq_some_iff.2
            ⟨as, Value.asList_canonical_of (fun _ _ => Answer.ofSorted?_of_ofWritten?) made, rfl⟩
  | _ => cases h

/-- If no member is repeated, the decoder accepts whatever the canonical value describes. -/
theorem ofWritten?_of_distinct {v : Value} (h : v.Distinct) :
    ofWritten? v = ofSorted? v.canonical := by
  cases v with
  | object ms =>
      obtain ⟨nodup, inside⟩ := Value.distinct_object_iff.1 h
      have once := List.nodup_iff_count.1 nodup "questions"
      rw [ofWritten?, Value.asRecord, ofMembers_eq, if_pos once, Value.canonical_object, ofSorted?,
        ofMembers?, Members.find?_canonical]
      congr 1
      cases last : Members.last? "questions" ms with
      | none => rfl
      | some v =>
          rw [Members.last?_eq_find? nodup] at last
          have distinct := inside _ (Members.mem_of_find? last)
          rw [Option.map_some, ifGiven, ifGiven]
          cases v with
          | array vs =>
              exact congrArg _ (Value.asList_canonical fun v hv =>
                Answer.ofWritten?_of_distinct (Value.distinct_array_iff.1 distinct v hv))
          | _ => rfl
  | _ => rfl

end Submission

namespace Page

/-- The names with a meaning. -/
def fieldNames : List String := ["responses", "totalResponses", "pageCount"]

/-- The members of a page as they are written. -/
def treeMembers (p : Page) : Members :=
  [("responses", .array (p.responses.map Submission.tree)),
    ("totalResponses", .natural p.totalResponses.toNat p.totalResponses.toNat_lt),
    ("pageCount", .natural p.pageCount.toNat p.pageCount.toNat_lt)]

/-- The page as a value. -/
def tree (p : Page) : Value := .object p.treeMembers

theorem print_eq_print_tree (p : Page) : p.print = p.tree.print := by
  simp only [print, tree, treeMembers, Value.print, printMembers, printAll_eq_map, List.map_map,
    Value.print_natural, funext Submission.print_eq_print_tree]
  rfl

/-! ## What the decoder does -/

/-- How a page is read from its fields. -/
def fields (record : String) : Decoder.Fields Draft Page :=
  { record, empty := {}, member := member, finish := finish, inOrder := some (inOrder record) }

/-- What becomes of the fields read so far when one more member comes. -/
def step (draft : Draft) (m : String × Value) : Option Draft :=
  (takeField "responses" (Value.asList Submission.ofWritten?) draft.responses m).bind
    fun responses =>
      (takeField "totalResponses" Value.asUnsigned64 draft.totalResponses m).bind
        fun totalResponses =>
          (takeField "pageCount" Value.asUnsigned64 draft.pageCount m).map fun pageCount =>
            ⟨responses, totalResponses, pageCount⟩

/-- The page that the items of a list describe. -/
def ofItems? : List Value → Option Page :=
  takeItem (Value.asList Submission.ofWritten?) fun responses =>
    takeItem Value.asUnsigned64 fun totalResponses =>
      takeItem Value.asUnsigned64 fun pageCount =>
        takeEnd ⟨responses, totalResponses, pageCount⟩

/-- The page that a value, as it is written, describes. -/
def ofWritten? (record : String) : Value → Option Page :=
  Value.asRecord ((fields record).ofMembers step) ofItems?

/-- What is given for the responses of a page. -/
def givenResponses : Value → Option Value
  | .object ms => Members.last? "responses" ms
  | .array (v :: _) => some v
  | _ => none

theorem foldlM_step (ms : Members) (draft : Draft) :
    ms.foldlM step draft =
      (ms.foldlM (takeField "responses" (Value.asList Submission.ofWritten?)) draft.responses).bind
        fun responses =>
          (ms.foldlM (takeField "totalResponses" Value.asUnsigned64) draft.totalResponses).bind
            fun totalResponses =>
              (ms.foldlM (takeField "pageCount" Value.asUnsigned64) draft.pageCount).map
                fun pageCount => ⟨responses, totalResponses, pageCount⟩ := by
  induction ms generalizing draft with
  | nil => rfl
  | cons m ms ih =>
      simp only [List.foldlM_cons, step]
      cases takeField "responses" (Value.asList Submission.ofWritten?) draft.responses m <;>
        cases takeField "totalResponses" Value.asUnsigned64 draft.totalResponses m <;>
        cases takeField "pageCount" Value.asUnsigned64 draft.pageCount m <;>
        simp [ih]

theorem responses_of_finish {draft : Draft} {p : Page}
    (h : (finish draft).toOption = some p) : draft.responses = some p.responses := by
  rcases draft with ⟨_ | responses, _ | totalResponses, _ | pageCount⟩
  case some.some.some =>
    obtain rfl := Option.some.inj h
    rfl
  all_goals cases h

/-- The responses of a page are made of the items that are given for them. -/
theorem responses_of_ofWritten? {record : String} {v : Value} {p : Page}
    (h : ofWritten? record v = some p) :
    ∃ vs, givenResponses v = some (.array vs) ∧
      vs.mapM Submission.ofWritten? = some p.responses := by
  have list : ∀ {v : Value} {rs : List Submission},
      v.asList Submission.ofWritten? = some rs →
        ∃ vs, v = .array vs ∧ vs.mapM Submission.ofWritten? = some rs := by
    intro v rs made
    cases v with
    | array vs => exact ⟨vs, rfl, made⟩
    | _ => cases made
  cases v with
  | object ms =>
      obtain ⟨draft, taken, finished⟩ := Option.bind_eq_some_iff.1 h
      rw [foldlM_step] at taken
      simp only [Option.bind_eq_some_iff, Option.map_eq_some_iff] at taken
      obtain ⟨responses, taken, _, -, _, -, rfl⟩ := taken
      obtain rfl := responses_of_finish finished
      obtain ⟨-, v, last, made⟩ := foldlM_takeField_eq_some_iff.1 taken
      obtain ⟨vs, rfl, made⟩ := list made
      exact ⟨vs, last, made⟩
  | array vs =>
      obtain ⟨v, rest, rs, rfl, made, h⟩ := takeItem_eq_some_iff.1 h
      obtain ⟨_, rest, _, rfl, -, h⟩ := takeItem_eq_some_iff.1 h
      obtain ⟨_, rest, _, rfl, -, h⟩ := takeItem_eq_some_iff.1 h
      obtain ⟨rfl, rfl⟩ := takeEnd_eq_some_iff.1 h
      obtain ⟨vs, rfl, made⟩ := list made
      exact ⟨vs, rfl, made⟩
  | _ => cases h

theorem member_follows (room : Nat) (draft : Draft) (name : String) (bs : Bytes)
    (known : name ∈ fieldNames) :
    (member room draft name bs).Follows (memberValue (valueAsWritten room) bs)
      fun v => step draft (name, v) := by
  rw [member]
  split_ifs with responses totalResponses pageCount
  · subst responses
    refine field_follows (.list Submission.decoder_interprets)
      (fun o => { draft with responses := o }) (fun v => ?_) room bs
    simp [step, takeField_other, bind_some_eq_map]
  · subst totalResponses
    refine field_follows .unsigned64 (fun o => { draft with totalResponses := o })
      (fun v => ?_) room bs
    simp [step, takeField_other, bind_some_eq_map]
  · subst pageCount
    refine field_follows .unsigned64 (fun o => { draft with pageCount := o }) (fun v => ?_) room bs
    simp [step, takeField_other]
  · simp [fieldNames, responses, totalResponses, pageCount] at known

theorem member_unknown (room : Nat) (draft : Draft) (name : String) (bs : Bytes)
    (unknown : name ∉ fieldNames) :
    member room draft name bs = Decoder.unknownField draft bs := by
  simp only [fieldNames, List.mem_cons, List.not_mem_nil, or_false, not_or] at unknown
  rw [member, if_neg unknown.1, if_neg unknown.2.1, if_neg unknown.2.2]

theorem inOrder_follows (record : String) (room : Nat) (bs : Bytes) :
    (closed closeList (inOrder record room bs)).Follows (items (valueAsWritten room) bs)
      ofItems? := by
  refine takeItem_follows (.list Submission.decoder_interprets) 0 _ (fun responses rest => ?_) bs
  refine takeItem_follows .unsigned64 1 _ (fun totalResponses rest => ?_) rest
  refine takeItem_follows .unsigned64 2 _ (fun pageCount rest => ?_) rest
  exact takeEnd_follows _ room rest

/-- A decoder of pages makes of a document, read without the members that a page does not know,
what that value describes. -/
theorem decoderFor_follows (record : String) (room : Nat) (bs : Bytes) :
    (decoderFor record room bs).Follows (outline (· ∈ fieldNames) room bs) (ofWritten? record) := by
  change (Decoder.record (fields record) room bs).Follows _ _
  refine record_follows ?_ ?_ (by rintro ⟨⟩) ?_ room bs
  · exact fun room draft name bs known =>
      member_follows room draft name bs (of_decide_eq_true known)
  · exact fun room draft name bs unknown =>
      member_unknown room draft name bs (of_decide_eq_false unknown)
  · rintro read ⟨⟩
    exact inOrder_follows record

/-! ## Members in ascending order -/

/-- The page that members in ascending order describe. -/
def ofMembers? (ms : Members) : Option Page :=
  (ifGiven (Value.asList Submission.ofSorted?) (ms.find? "responses")).bind fun responses =>
    (ifGiven Value.asUnsigned64 (ms.find? "totalResponses")).bind fun totalResponses =>
      (ifGiven Value.asUnsigned64 (ms.find? "pageCount")).bind fun pageCount =>
        (finish ⟨responses, totalResponses, pageCount⟩).toOption

/-- The page that a list of canonical items describes. -/
def ofSortedItems? : List Value → Option Page :=
  takeItem (Value.asList Submission.ofSorted?) fun responses =>
    takeItem Value.asUnsigned64 fun totalResponses =>
      takeItem Value.asUnsigned64 fun pageCount =>
        takeEnd ⟨responses, totalResponses, pageCount⟩

/-- The page that a value with members in ascending order describes. -/
def ofSorted? : Value → Option Page := Value.asRecord ofMembers? ofSortedItems?

/-- The responses that are given without repeated members. -/
theorem asList_of_distinct {v : Value} (h : v.Distinct) :
    v.asList Submission.ofWritten? = v.canonical.asList Submission.ofSorted? := by
  cases v with
  | array vs =>
      exact Value.asList_canonical fun v hv =>
        Submission.ofWritten?_of_distinct (Value.distinct_array_iff.1 h v hv)
  | _ => rfl

/-- If no member is repeated, the decoder makes of a value what the canonical value describes. -/
theorem ofWritten?_of_distinct (record : String) {v : Value} (h : v.Distinct) :
    ofWritten? record v = ofSorted? v.canonical := by
  cases v with
  | object ms =>
      obtain ⟨nodup, inside⟩ := Value.distinct_object_iff.1 h
      have once := List.nodup_iff_count.1 nodup
      have responses : ifGiven (Value.asList Submission.ofWritten?) (Members.find? "responses" ms) =
          ifGiven (Value.asList Submission.ofSorted?)
            ((Members.find? "responses" ms).map Value.canonical) := by
        cases found : Members.find? "responses" ms with
        | none => rfl
        | some v =>
            have distinct := inside _ (Members.mem_of_find? found)
            rw [Option.map_some, ifGiven, ifGiven, asList_of_distinct distinct]
      rw [ofWritten?, Value.asRecord, Decoder.Fields.ofMembers, foldlM_step, Value.canonical_object,
        ofSorted?, Value.asRecord, ofMembers?]
      simp only [fields, foldlM_takeField, once, if_true, Members.last?_eq_find? nodup,
        Members.find?_canonical, responses, ifGiven_map_canonical Value.asUnsigned64_canonical]
      simp only [Option.bind_assoc, Option.map_eq_bind, Function.comp_apply, Option.bind_some]
  | array vs =>
      have distinct := Value.distinct_array_iff.1 h
      rw [Value.canonical_array]
      refine takeItem_canonical (fun v hv => ?_) fun responses => ?_
      · exact asList_of_distinct (distinct v (List.mem_of_mem_head? hv))
      · refine takeItem_canonical (fun v _ => (Value.asUnsigned64_canonical v).symm) fun total => ?_
        refine takeItem_canonical (fun v _ => (Value.asUnsigned64_canonical v).symm) fun count => ?_
        exact takeEnd_canonical _ _
  | _ => rfl

end Page

end FormSieve
