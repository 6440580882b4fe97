import FormSieve.Proofs.Filter.Validation
import FormSieve.Proofs.Json.Document

/-!
# Two ways to read filters

Filters are validated, and they can also be decoded like any other record. Decoding takes empty
questions and falsy targets as they are, minds members that are given twice and passes over the
members that it does not know. The main statement is that the two agree on every list of objects
that give none of the three members twice and name their comparators by text.
-/

namespace FormSieve

open Json Ascii

namespace Json

/-! ## Objects with one member -/

section Written

variable {read : Bytes → Reading Value} {ms : Members} {bs rest : Bytes}

/-- The members that have been read stay in front of those that follow. -/
theorem membersFrom_keeps (bound : Nat) (first : Bool) (ms : Members) (bs : Bytes) :
    (membersFrom (valueMember .written read) bound first ms bs).Ensures (ms <+: ·) := by
  induction bound generalizing first ms bs with
  | zero => exact .faultAt _ _
  | succ bound ih =>
      refine .andThen (.trivial _) fun name rest _ => ?_
      cases name with
      | none => exact .ok (List.prefix_refl ms)
      | some name =>
          have one : (valueMember .written read ms name rest).Ensures (ms <+: ·) :=
            .andThen (.trivial _) fun _ rest _ => .andThen (.trivial _) fun v rest _ =>
              .ok (List.prefix_append ms [(name, v)])
          refine one.andThen fun ms' rest begins => ?_
          exact fun others left read => begins.trans (ih false ms' rest others left read)

/-- Nothing is added only where the object ends. -/
theorem membersFrom_eq_self {bound : Nat} {first : Bool}
    (h : membersFrom (valueMember .written read) bound first ms bs = .ok (ms, rest)) :
    ∃ left, skipSpace bs = rightBrace :: left ∧ rest = rightBrace :: left := by
  cases bound with
  | zero => exact nomatch h
  | succ bound =>
      obtain ⟨name, between, next, h⟩ := Reading.andThen_eq_ok_iff.1 h
      rcases nextName_cases next with ⟨rfl, left, ends, rfl⟩ | ⟨s, rfl, -⟩
      · cases h
        exact ⟨left, ends, rfl⟩
      · obtain ⟨ms', between, one, others⟩ := Reading.andThen_eq_ok_iff.1 h
        obtain ⟨_, _, -, one⟩ := Reading.andThen_eq_ok_iff.1 one
        obtain ⟨v, _, -, same⟩ := Reading.andThen_eq_ok_iff.1 one
        cases same
        have longer := (membersFrom_keeps bound false _ _ ms rest others).length_le
        rw [Joining.written, List.length_append, List.length_singleton] at longer
        omega

/-- What it takes for an object to have just one member. -/
theorem closed_members_single_iff {s : String} {v : Value} :
    closed closeObject (members (valueMember .written read) [] bs) = .ok ([(s, v)], rest) ↔
      ∃ named colon value behind, skipSpace bs = quote :: named ∧ text named = .ok (s, colon) ∧
        pastColon colon = .ok ((), value) ∧ read value = .ok (v, behind) ∧
        skipSpace behind = rightBrace :: rest := by
  rw [closed_eq_ok_iff, members, membersFrom]
  constructor
  · rintro ⟨between, h, closing⟩
    obtain ⟨name, colon, next, h⟩ := Reading.andThen_eq_ok_iff.1 h
    rcases nextName_cases next with ⟨rfl, _⟩ | ⟨s', rfl, ⟨-, named, opens, spelled⟩ | ⟨⟨⟩, -⟩⟩
    · cases h
    · obtain ⟨ms, behind, one, others⟩ := Reading.andThen_eq_ok_iff.1 h
      obtain ⟨_, value, past, one⟩ := Reading.andThen_eq_ok_iff.1 one
      obtain ⟨v', _, one, same⟩ := Reading.andThen_eq_ok_iff.1 one
      cases same
      have begins := membersFrom_keeps bs.length false _ _ _ _ others
      obtain ⟨rfl, rfl⟩ : s' = s ∧ v' = v := by simpa [Joining.written] using begins
      obtain ⟨left, ends, rfl⟩ := membersFrom_eq_self others
      rw [closeObject_rightBrace] at closing
      cases closing
      exact ⟨named, colon, value, behind, opens, spelled, past, one, ends⟩
  · rintro ⟨named, colon, value, behind, opens, spelled, past, one, ends⟩
    refine ⟨rightBrace :: rest, ?_, closeObject_rightBrace rest⟩
    obtain ⟨bound, enough⟩ : ∃ bound, bs.length = bound + 1 := by
      cases bs with
      | nil => cases opens
      | cons b bs => exact ⟨bs.length, rfl⟩
    have first : nextName true bs = .ok (some s, colon) := by
      rw [nextName, opens]
      simp [show quote ≠ rightBrace by decide, spelled]
    have last : nextName false behind = .ok (none, rightBrace :: rest) := by
      rw [nextName, ends]
      rfl
    simp [first, valueMember, past, one, Joining.written, enough, membersFrom, last]

end Written

end Json

/-! ## Comparators and targets -/

namespace Comparator

/-- The comparator that a value, as it is written, describes by its tag: as a text, or as the only
member of an object with `null` for its value. -/
def ofWritten? : Value → Option Comparator
  | .text s => ofTag? s
  | .object [(s, .null)] => ofTag? s
  | _ => none

theorem ofWritten?_object_eq_some_iff {ms : Members} {c : Comparator} :
    ofWritten? (.object ms) = some c ↔ ∃ s, ms = [(s, .null)] ∧ ofTag? s = some c := by
  rw [ofWritten?.eq_def]
  split
  · contradiction
  · next s same =>
      obtain rfl := Value.object.inj same
      simp
  · next other =>
      refine iff_of_false (by simp) ?_
      rintro ⟨s, rfl, -⟩
      exact other s rfl

theorem nameDecoder_eq_ok_iff {room : Nat} {bs rest : Bytes} {c : Comparator} :
    nameDecoder room bs = .ok (c, rest) ↔
      ∃ named s, skipSpace bs = quote :: named ∧ Json.text named = .ok (s, rest) ∧
        ofTag? s = some c := by
  rw [nameDecoder]
  cases skipSpace bs with
  | nil => simp [faultAt]
  | cons b named =>
      by_cases opens : b = quote
      · subst opens
        simp only [if_true, Reading.andThen_eq_ok_iff]
        constructor
        · rintro ⟨s, between, spelled, h⟩
          cases tagged : ofTag? s with
          | none => simp [tagged, faultAt] at h
          | some found =>
              obtain ⟨rfl, rfl⟩ : found = c ∧ between = rest := by simpa [tagged] using h
              exact ⟨named, s, rfl, spelled, tagged⟩
        · rintro ⟨_, s, ⟨⟩, spelled, tagged⟩
          exact ⟨s, rest, spelled, by rw [tagged]⟩
      · obtain ⟨fault, refused⟩ := exists_mismatch (α := Comparator) .variant (b :: named)
        simp [opens, refused]

/-- The tag of a comparator within braces is the name of the only member of an object. -/
theorem tagged_follows (room : Nat) (bs : Bytes) :
    ((nameDecoder room bs).andThen fun c rest =>
      (pastColon rest).andThen fun _ rest =>
        (Decoder.unit room rest).andThen fun _ rest =>
          match skipSpace rest with
          | [] => faultAt .unfinishedObject []
          | b :: rest =>
            if b = rightBrace then .ok (c, rest) else faultAt .valueExpected (b :: rest)).Follows
      ((closed closeObject (members (valueMember .written (valueAsWritten room)) [] bs)).andThen
        fun ms rest => .ok (.object ms, rest)) ofWritten? := by
  intro c left
  constructor
  · intro h
    obtain ⟨c', colon, tag, h⟩ := Reading.andThen_eq_ok_iff.1 h
    obtain ⟨_, value, past, h⟩ := Reading.andThen_eq_ok_iff.1 h
    obtain ⟨_, behind, null, h⟩ := Reading.andThen_eq_ok_iff.1 h
    obtain ⟨named, s, opens, spelled, tagged⟩ := nameDecoder_eq_ok_iff.1 tag
    obtain ⟨v, null, isNull⟩ := (Decoder.Interprets.unit room value () behind).1 null
    obtain rfl : v = .null := by cases v <;> first | rfl | exact nomatch isNull
    split at h
    · exact nomatch h
    · next b rest ends =>
      split at h
      · next closing =>
        subst closing
        cases h
        refine ⟨.object [(s, .null)], ?_, tagged⟩
        rw [closed_members_single_iff.2
          ⟨named, colon, value, behind, opens, spelled, past, null, ends⟩, Reading.andThen_ok]
      · exact nomatch h
  · rintro ⟨v, h, made⟩
    obtain ⟨ms, _, read, same⟩ := Reading.andThen_eq_ok_iff.1 h
    cases same
    obtain ⟨s, rfl, tagged⟩ := ofWritten?_object_eq_some_iff.1 made
    obtain ⟨named, colon, value, behind, opens, spelled, past, null, ends⟩ :=
      closed_members_single_iff.1 read
    have tag : nameDecoder room bs = .ok (c, colon) :=
      nameDecoder_eq_ok_iff.2 ⟨named, s, opens, spelled, tagged⟩
    have unit := (Decoder.Interprets.unit room value () behind).2 ⟨.null, null, rfl⟩
    rw [tag, Reading.andThen_ok, past, Reading.andThen_ok, unit, Reading.andThen_ok, ends]
    rfl

theorem decoder_interprets : decoder.Interprets ofWritten? := by
  intro room bs
  rw [decoder]
  split
  · next h => exact Decoder.Interprets.missing h room
  · next b rest h =>
    split_ifs with opens brace
    · subst opens
      rw [valueAsWritten_eq, valueWith_quote h, nameDecoder, skipSpace_cons (by decide)]
      dsimp only
      rw [if_pos rfl]
      refine .andThen fun s rest => ?_
      cases tagged : ofTag? s with
      | none => exact .nothing (.ok tagged)
      | some c => exact .ok tagged
    · subst brace
      rw [valueAsWritten_eq, valueWith_leftBrace h]
      cases room with
      | zero => exact .nothing (.faultAt _ _)
      | succ room => exact tagged_follows room rest
    · refine .nothing fun v left read => ?_
      have starts := valueAsWritten_opens h room v left read
      cases v with
      | text s => exact absurd starts opens
      | object ms => exact absurd starts brace
      | _ => rfl

/-- A text is decoded as the comparator of that name. -/
theorem decode_printText (s : String) (c : Comparator) :
    decode decoder (Text.bytes (printText s)) = .ok c ↔ c.name = s := by
  have spelled : (Value.text s).Spelling maxDepth (Text.bytes (printText s)) := spelling_text s
  have read := decode_valueAsWritten_of_spelling spelled Blank.nil Blank.nil
  rw [List.nil_append, List.append_nil] at read
  rw [decode_eq_ok_iff_of_follows decoder_interprets, read]
  simp [ofWritten?, ofTag?_eq_ofName?, ofName?_eq_some_iff]

end Comparator

namespace Target

/-- The decoder takes for a target what validation takes for one. -/
theorem decoder_interprets : decoder.Interprets ofValue? := by
  intro room bs
  refine (Reading.Follows.self _).bind fun v rest => ?_
  cases made : ofValue? v with
  | none => exact .nothing (.ok made)
  | some target => exact .ok made

/-- The target is the same number or text that the value is. -/
theorem decoder_eq_ok_iff {room : Nat} {bs rest : Bytes} {t : Target} :
    decoder room bs = .ok (t, rest) ↔ Decoder.value room bs = .ok (t.toValue, rest) := by
  rw [decoder_interprets room bs, Decoder.Interprets.value room bs]
  simp [ofValue?_eq_some_iff]

end Target

/-! ## Clauses -/

namespace Clause

/-- The names with a meaning. -/
def fieldNames : List String := ["id", "condition", "value"]

/-- How a clause is read from its fields. -/
def fields : Decoder.Fields Draft Clause :=
  { record := recordName, empty := {}, member := member, finish := finish,
    inOrder := some inOrder }

/-- What becomes of the fields read so far when one more member comes. -/
def step (draft : Draft) (m : String × Value) : Option Draft :=
  (takeField "id" Value.asText draft.id m).bind fun id =>
    (takeField "condition" Comparator.ofWritten? draft.comparator m).bind fun comparator =>
      (takeField "value" Target.ofValue? draft.target m).map fun target => ⟨id, comparator, target⟩

/-- The clause that the items of a list describe. -/
def ofItems? : List Value → Option Clause :=
  takeItem Value.asText fun id =>
    takeItem Comparator.ofWritten? fun comparator =>
      takeItem Target.ofValue? fun target => takeEnd ⟨id, comparator, target⟩

/-- The clause that a value, as it is written, describes to the decoder. -/
def ofWritten? : Value → Option Clause := Value.asRecord (fields.ofMembers step) ofItems?

theorem foldlM_step (ms : Members) (draft : Draft) :
    ms.foldlM step draft =
      (ms.foldlM (takeField "id" Value.asText) draft.id).bind fun id =>
        (ms.foldlM (takeField "condition" Comparator.ofWritten?) draft.comparator).bind
          fun comparator =>
            (ms.foldlM (takeField "value" Target.ofValue?) draft.target).map fun target =>
              ⟨id, comparator, target⟩ := by
  induction ms generalizing draft with
  | nil => rfl
  | cons m ms ih =>
      simp only [List.foldlM_cons, step]
      cases takeField "id" Value.asText draft.id m <;>
        cases takeField "condition" Comparator.ofWritten? draft.comparator m <;>
        cases takeField "value" Target.ofValue? draft.target m <;>
        simp [ih]

theorem member_follows (room : Nat) (draft : Draft) (name : String) (bs : Bytes)
    (known : name ∈ fieldNames) :
    (member room draft name bs).Follows (memberValue (valueAsWritten room) bs)
      fun v => step draft (name, v) := by
  rw [member]
  split_ifs with id condition value
  · subst id
    refine field_follows .text (fun o => { draft with id := o }) (fun v => ?_) room bs
    simp [step, takeField_other, bind_some_eq_map]
  · subst condition
    refine field_follows Comparator.decoder_interprets (fun o => { draft with comparator := o })
      (fun v => ?_) room bs
    simp [step, takeField_other, bind_some_eq_map]
  · subst value
    refine field_follows Target.decoder_interprets (fun o => { draft with target := o })
      (fun v => ?_) room bs
    simp [step, takeField_other]
  · simp [fieldNames, id, condition, value] at known

theorem member_unknown (room : Nat) (draft : Draft) (name : String) (bs : Bytes)
    (unknown : name ∉ fieldNames) :
    member room draft name bs = Decoder.unknownField draft bs := by
  simp only [fieldNames, List.mem_cons, List.not_mem_nil, or_false, not_or] at unknown
  rw [member, if_neg unknown.1, if_neg unknown.2.1, if_neg unknown.2.2]

theorem inOrder_follows (room : Nat) (bs : Bytes) :
    (closed closeList (inOrder room bs)).Follows (items (valueAsWritten room) bs) ofItems? := by
  refine takeItem_follows .text 0 _ (fun id rest => ?_) bs
  refine takeItem_follows Comparator.decoder_interprets 1 _ (fun comparator rest => ?_) rest
  refine takeItem_follows Target.decoder_interprets 2 _ (fun target rest => ?_) rest
  exact takeEnd_follows _ room rest

/-- The decoder makes of a document, read without the members that a clause does not know, what
that value describes. -/
theorem decoder_follows (room : Nat) (bs : Bytes) :
    (decoder room bs).Follows (outline (· ∈ fieldNames) room bs) ofWritten? := by
  change (Decoder.record fields room bs).Follows _ _
  refine record_follows ?_ ?_ (by rintro ⟨⟩) ?_ room bs
  · exact fun room draft name bs known =>
      member_follows room draft name bs (of_decide_eq_true known)
  · exact fun room draft name bs unknown =>
      member_unknown room draft name bs (of_decide_eq_false unknown)
  · rintro read ⟨⟩
    exact inOrder_follows

theorem finish_eq_some_iff {draft : Draft} {c : Clause} :
    (finish draft).toOption = some c ↔
      draft = ⟨some c.id, some c.comparator, some c.target⟩ := by
  obtain ⟨id, comparator, target⟩ := c
  rcases draft with ⟨_ | s, _ | comparator', _ | target'⟩
  case some.some.some =>
    change some (⟨s, comparator', target'⟩ : Clause) = some _ ↔ _
    simp
  all_goals exact iff_of_false nofun nofun

/-- The clause that an object describes to the decoder. -/
theorem ofWritten?_object_eq_some_iff {ms : Members} {c : Clause} :
    ofWritten? (.object ms) = some c ↔
      (ms.names.count "id" ≤ 1 ∧ ms.last? "id" = some (.text c.id)) ∧
        (ms.names.count "condition" ≤ 1 ∧
          ∃ v, ms.last? "condition" = some v ∧ Comparator.ofWritten? v = some c.comparator) ∧
        (ms.names.count "value" ≤ 1 ∧ ms.last? "value" = some c.target.toValue) := by
  have id : ms.foldlM (takeField "id" Value.asText) none = some (some c.id) ↔
      ms.names.count "id" ≤ 1 ∧ ms.last? "id" = some (.text c.id) := by
    have text (v : Value) : v.asText = some c.id ↔ v = .text c.id := by
      cases v <;> simp [Value.asText]
    simp [foldlM_takeField_eq_some_iff, text]
  have value : ms.foldlM (takeField "value" Target.ofValue?) none = some (some c.target) ↔
      ms.names.count "value" ≤ 1 ∧ ms.last? "value" = some c.target.toValue := by
    simp [foldlM_takeField_eq_some_iff, Target.ofValue?_eq_some_iff]
  rw [← id, ← foldlM_takeField_eq_some_iff, ← value, ofWritten?, Value.asRecord,
    Decoder.Fields.ofMembers, Option.bind_eq_some_iff]
  simp only [fields, finish_eq_some_iff, exists_eq_right, foldlM_step, Option.bind_eq_some_iff,
    Option.map_eq_some_iff, Draft.mk.injEq]
  constructor
  · rintro ⟨_, id, _, condition, _, value, rfl, rfl, rfl⟩
    exact ⟨id, condition, value⟩
  · rintro ⟨id, condition, value⟩
    exact ⟨_, id, _, condition, _, value, rfl, rfl, rfl⟩

/-! ## Members that are not known -/

/-- The members of an item that have a meaning. -/
def known (item : Value) : Value := item.keeping (· ∈ fieldNames)

section Known

variable {name : String} (field : name ∈ fieldNames) (ms : Members)
include field

theorem last?_known :
    Members.last? name (ms.filter fun m => decide (m.1 ∈ fieldNames)) = ms.last? name := by
  rw [Members.last?, Members.last?, List.filter_filter]
  refine congrArg _ (congrArg _ (List.filter_congr fun m _ => ?_))
  by_cases same : m.1 = name
  · simp [same, field]
  · simp [same]

theorem count_known :
    (Members.names (ms.filter fun m => decide (m.1 ∈ fieldNames))).count name =
      ms.names.count name := by
  have names : Members.names (ms.filter fun m => decide (m.1 ∈ fieldNames)) =
      ms.names.filter fun other => decide (other ∈ fieldNames) := by
    simp [Members.names, List.filter_map, Function.comp_def]
  rw [names]
  exact List.count_filter (by simpa using field)

end Known

/-- Whether an item describes a clause depends on nothing but the members with a meaning. -/
theorem describedBy_known_iff {c : Clause} {item : Value} :
    c.DescribedBy (known item) ↔ c.DescribedBy item := by
  cases item with
  | object ms =>
      have id := last?_known (by decide : "id" ∈ fieldNames) ms
      have condition := last?_known (by decide : "condition" ∈ fieldNames) ms
      have value := last?_known (by decide : "value" ∈ fieldNames) ms
      simp only [DescribedBy, known, Value.keeping, Value.object.injEq, exists_eq_left', id,
        condition, value]
  | _ => rfl

/-- An object that gives none of the three members twice and names its comparators by text. -/
def IsPlain (item : Value) : Prop :=
  ∃ ms : Members, item = .object ms ∧ (∀ name ∈ fieldNames, ms.names.count name ≤ 1) ∧
    ∀ v, ("condition", v) ∈ ms → ∃ s, v = .text s

/-- Of a plain item the decoder makes the clause that is described, which is all that validation
makes of it where the clause is given as it should be. -/
theorem describedBy_iff_of_isPlain {item : Value} (plain : IsPlain item) {c : Clause} :
    c.DescribedBy item ↔
      ofWritten? (known item) = some c ∧ c.id ≠ "" ∧ c.target.isFalsy = false := by
  obtain ⟨ms, rfl, once, texts⟩ := plain
  have id := once "id" (by decide)
  have condition := once "condition" (by decide)
  have value := once "value" (by decide)
  have named : (∃ v, ms.last? "condition" = some v ∧ Comparator.ofWritten? v = some c.comparator) ↔
      ms.last? "condition" = some (.text c.comparator.name) := by
    have tagged (s : String) : Comparator.ofWritten? (.text s) = some c.comparator ↔
        c.comparator.name = s := by
      rw [Comparator.ofWritten?, Comparator.ofTag?_eq_ofName?, Comparator.ofName?_eq_some_iff]
    constructor
    · rintro ⟨v, given, made⟩
      obtain ⟨s, rfl⟩ := texts v (Members.mem_of_last? given)
      rw [given, (tagged s).1 made]
    · intro given
      exact ⟨_, given, (tagged _).2 rfl⟩
  have idField : "id" ∈ fieldNames := by decide
  have conditionField : "condition" ∈ fieldNames := by decide
  have valueField : "value" ∈ fieldNames := by decide
  rw [known, Value.keeping, ofWritten?_object_eq_some_iff, count_known idField,
    count_known conditionField, count_known valueField, last?_known idField,
    last?_known conditionField, last?_known valueField, named, Target.isFalsy_eq_false_iff]
  constructor
  · rintro ⟨_, ⟨⟩, comparator, question, nonempty, target, given⟩
    exact ⟨⟨⟨id, question⟩, ⟨condition, comparator⟩, value, target⟩, nonempty, given⟩
  · rintro ⟨⟨⟨-, question⟩, ⟨-, comparator⟩, -, target⟩, nonempty, given⟩
    exact ⟨ms, rfl, comparator, question, nonempty, target, given⟩

end Clause

/-! ## Filters -/

namespace FilterSet

/-- The decoder makes of a list what it makes of the known members of its items. -/
theorem decode_eq_ok_iff_known {document : Bytes} {items : List Value} {filters : FilterSet}
    (read : decode valueAsWritten document = .ok (.array items)) :
    decode decoder document = .ok filters ↔
      (items.map Clause.known).mapM Clause.ofWritten? = some filters := by
  have kept : decode (Decoder.list (outline (· ∈ Clause.fieldNames))) document =
      .ok (items.map Clause.known) := decode_list_outline _ read
  rw [decoder, decode_eq_ok_iff_of_follows (Decoder.list_follows Clause.decoder_follows), kept]
  simp

/-- Validation depends on nothing but the known members of the items. -/
theorem ofText_eq_ok_iff_known {text : String} {items : List Value} {filters : FilterSet}
    (read : decode valueAsWritten (Text.bytes text) = .ok (.array items)) :
    ofText text = .ok filters ↔
      List.Forall₂ Clause.DescribedBy filters (items.map Clause.known) := by
  rw [ofText_eq_ok_iff, List.forall₂_map_right_iff]
  simp only [Clause.describedBy_known_iff]
  constructor
  · rintro ⟨items', read', described⟩
    cases read.symm.trans read'
    exact described
  · exact fun described => ⟨items, read, described⟩

/-- Plain items describe the clauses that the decoder makes of them, if these are given as they
should be. -/
theorem forall₂_describedBy_iff {items : List Value} (plain : ∀ item ∈ items, Clause.IsPlain item)
    (filters : FilterSet) :
    List.Forall₂ Clause.DescribedBy filters items ↔
      (items.map Clause.known).mapM Clause.ofWritten? = some filters ∧
        ∀ c ∈ filters, c.id ≠ "" ∧ c.target.isFalsy = false := by
  rw [Value.mapM_eq_some_iff, List.forall₂_map_left_iff]
  induction items generalizing filters with
  | nil => simp +contextual [List.forall₂_nil_right_iff, List.forall₂_nil_left_iff]
  | cons item items ih =>
      obtain ⟨here, others⟩ := List.forall_mem_cons.1 plain
      cases filters with
      | nil => simp
      | cons c filters =>
          rw [List.forall₂_cons, List.forall₂_cons, List.forall_mem_cons, ih others,
            Clause.describedBy_iff_of_isPlain here]
          exact and_and_and_comm

/-- Validating and decoding agree. A list of plain items gives some filters by validation exactly
if the decoder gives the same filters and none of them has an empty question or a falsy target. The
names of the comparators are the same four to both, members that have no meaning make no difference
to either, and the decoder takes from a number or a text just that number or text. -/
theorem ofText_agrees_decode :
    (∀ text items, decode valueAsWritten (Text.bytes text) = .ok (.array items) →
      (∀ item ∈ items, Clause.IsPlain item) →
        ∀ filters, ofText text = .ok filters ↔
          decode decoder (Text.bytes text) = .ok filters ∧
            ∀ c ∈ filters, c.id ≠ "" ∧ c.target.isFalsy = false) ∧
    (Comparator.all.map Comparator.name =
        ["equals", "does_not_equal", "greater_than", "less_than"] ∧
      ∀ s c, (Comparator.ofName? s = some c ↔ c.name = s) ∧
        (decode Comparator.decoder (Text.bytes (printText s)) = .ok c ↔ c.name = s) ∧
        c.print = printText c.name) ∧
    (∀ text text' items items', decode valueAsWritten (Text.bytes text) = .ok (.array items) →
      decode valueAsWritten (Text.bytes text') = .ok (.array items') →
      items.map Clause.known = items'.map Clause.known →
        ∀ filters, (ofText text = .ok filters ↔ ofText text' = .ok filters) ∧
          (decode decoder (Text.bytes text) = .ok filters ↔
            decode decoder (Text.bytes text') = .ok filters)) ∧
    ∀ room bs t rest, Target.decoder room bs = .ok (t, rest) ↔
      Decoder.value room bs = .ok (t.toValue, rest) := by
  refine ⟨?_, ⟨rfl, fun s c => ⟨Comparator.ofName?_eq_some_iff, ?_, ?_⟩⟩, ?_, ?_⟩
  · intro text items read plain filters
    rw [ofText_eq_ok_iff_known read, decode_eq_ok_iff_known read, ← forall₂_describedBy_iff plain,
      List.forall₂_map_right_iff]
    simp only [Clause.describedBy_known_iff]
  · exact Comparator.decode_printText s c
  · rw [Comparator.print, Comparator.tag_eq_name]
  · intro text text' items items' read read' same filters
    constructor
    · rw [ofText_eq_ok_iff_known read, ofText_eq_ok_iff_known read', same]
    · rw [decode_eq_ok_iff_known read, decode_eq_ok_iff_known read', same]
  · exact fun room bs t rest => Target.decoder_eq_ok_iff

/-- A clause with a member that is not known, and the clause without it. -/
theorem ofText_agrees_decode_of_unknown :
    let text :=
      "[\x7b\"id\":\"a\",\"x\":[1],\"condition\":\"equals\",\"value\":-7\x7d]"
    let other := "[\x7b\"id\":\"a\",\"condition\":\"equals\",\"value\":-7\x7d]"
    let filters : FilterSet := [⟨"a", .equals, .number (.integer (-7) (by decide))⟩]
    ofText text = .ok filters ∧ ofText other = .ok filters ∧
      decode decoder (Text.bytes other) = .ok filters := by
  intro text other filters
  let target : Value := .number (.integer (-7) (by decide))
  let more : Members := [("id", .text "a"), ("x", .array [.number (.integer 1 (by decide))]),
    ("condition", .text "equals"), ("value", target)]
  let fewer : Members := [("id", .text "a"), ("condition", .text "equals"), ("value", target)]
  have read : decode valueAsWritten (Text.bytes text) = .ok (.array [.object more]) := rfl
  have read' : decode valueAsWritten (Text.bytes other) = .ok (.array [.object fewer]) := rfl
  have plain : ∀ item ∈ [Value.object more], Clause.IsPlain item := by
    intro item member
    obtain rfl := List.mem_singleton.1 member
    exact ⟨more, rfl, by decide, by simp [more]⟩
  have decoded : decode decoder (Text.bytes text) = .ok filters := rfl
  obtain ⟨agrees, -, ignores, -⟩ := ofText_agrees_decode
  have validated : ofText text = .ok filters :=
    (agrees text _ read plain filters).2 ⟨decoded, by decide +kernel⟩
  obtain ⟨same, same'⟩ := ignores text other _ _ read read' rfl filters
  exact ⟨validated, same.1 validated, same'.1 decoded⟩

end FilterSet

end FormSieve
