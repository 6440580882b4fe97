import FormSieve.Proofs.Submission.Tree

/-!
# The form of submissions that were read

An answer or a submission that was read carries its further members in ascending order, none of
them under the name of a field, and its tree fits into the brackets that were allowed. So no
member of its tree is repeated, and from its tree the same answer or submission is made again.
-/

namespace FormSieve

open Json

namespace Json

/-- A member is carried along by an answer or a submission with these fields. -/
structure Carried (fields : List String) (room : Nat) (extra : Members) : Prop where
  ascending : extra.Ascending
  unnamed : ∀ m ∈ extra, m.1 ∉ fields
  ordered : ∀ m ∈ extra, m.2.Ordered
  fits : ∀ m ∈ extra, m.2.Fits room

/-- The members without a meaning of an object in order are carried along. -/
theorem Carried.of_filter {fields : List String} {room : Nat} {ms : Members}
    (ordered : (Value.object ms).Ordered) (fits : (Value.object ms).Fits (room + 1)) :
    Carried fields room (ms.filter (·.1 ∉ fields)) := by
  obtain ⟨ascending, values⟩ := Value.ordered_object_iff.1 ordered
  cases fits with
  | object fits =>
      refine ⟨ascending.filter _, fun m hm => ?_, fun m hm => ?_, fun m hm => ?_⟩
      · exact of_decide_eq_true (List.mem_filter.1 hm).2
      · exact values m (List.mem_filter.1 hm).1
      · exact fits m (List.mem_filter.1 hm).1

theorem Carried.find?_eq_none {fields : List String} {room : Nat} {extra : Members}
    (h : Carried fields room extra) {name : String} (known : name ∈ fields) :
    extra.find? name = none := by
  refine Members.find?_eq_none_iff.2 fun repeated => ?_
  obtain ⟨m, hm, rfl⟩ := List.mem_map.1 repeated
  exact h.unnamed m hm known

/-- The members without a meaning are the ones carried along, whatever the fields are. -/
theorem Carried.filter_canonical {fields : List String} {room : Nat} {extra ms : Members}
    (h : Carried fields room extra) (nodup : ms.names.Nodup)
    (others : ∀ name, name ∉ fields → ms.find? name = extra.find? name) :
    (Members.ofWritten (canonicalMembers ms)).filter (·.1 ∉ fields) = extra := by
  have ascending := Members.ascending_ofWritten (canonicalMembers ms)
  refine Members.Ascending.ext (ascending.filter _) h.ascending fun name => ?_
  rw [Members.find?_filter (fun name => name ∉ fields), Members.find?_canonical,
    Members.last?_eq_find? nodup]
  split
  · next unknown =>
    rw [others name (of_decide_eq_true unknown)]
    cases found : extra.find? name with
    | none => rfl
    | some v =>
        rw [Option.map_some, (h.ordered _ (Members.mem_of_find? found)).canonical_eq]
  · next known => exact (h.find?_eq_none (by simpa using known)).symm

/-- The canonical form of members none of which is repeated, if their values are in order. -/
theorem Members.find?_ofWritten_canonicalMembers {ms : Members} (nodup : ms.names.Nodup)
    (ordered : ∀ m ∈ ms, m.2.Ordered) (name : String) :
    (ofWritten (canonicalMembers ms)).find? name = ms.find? name := by
  rw [find?_canonical, last?_eq_find? nodup]
  cases found : ms.find? name with
  | none => rfl
  | some v => rw [Option.map_some, (ordered _ (mem_of_find? found)).canonical_eq]

end Json

namespace Answer

/-- What an answer that was read is like. -/
structure Sound (room : Nat) (a : Answer) : Prop where
  ordered : a.value.Ordered
  fits : a.value.Fits room
  carried : Carried fieldNames room a.extra

theorem sound_of_ofSorted? {w : Value} {room : Nat} {a : Answer} (ordered : w.Ordered)
    (fits : w.Fits (room + 1)) (h : ofSorted? w = some a) : a.Sound room := by
  cases w with
  | object ms =>
      simp only [ofSorted?, ofMembers?, Option.bind_eq_some_iff, Option.map_eq_some_iff] at h
      obtain ⟨_, -, _, -, _, -, _, -, rfl⟩ := h
      have carried : Carried fieldNames room _ := Carried.of_filter ordered fits
      cases found : Members.find? "value" ms with
      | none => exact ⟨Value.ordered_null, .null _, carried⟩
      | some v =>
          have hv := Members.mem_of_find? found
          cases fits with
          | object fits => exact ⟨(Value.ordered_object_iff.1 ordered).2 _ hv, fits _ hv, carried⟩
  | _ => cases h

/-- No further member has the name of a field. -/
theorem unnamed_of_ofSorted? {w : Value} {a : Answer} (h : ofSorted? w = some a) :
    ∀ m ∈ a.extra, m.1 ∉ fieldNames := by
  cases w with
  | object ms =>
      simp only [ofSorted?, ofMembers?, Option.bind_eq_some_iff, Option.map_eq_some_iff] at h
      obtain ⟨_, -, _, -, _, -, _, -, rfl⟩ := h
      exact fun m hm => of_decide_eq_true (List.mem_filter.1 hm).2
  | _ => cases h

variable {room : Nat} {a : Answer}

theorem mem_treeMembers {m : String × Value} (h : m ∈ a.treeMembers) :
    (∃ s, m.2 = .text s) ∨ m.2 = a.value ∨ m ∈ a.extra := by
  simp only [treeMembers, List.mem_append, List.mem_cons, List.mem_map, Option.mem_toList,
    List.not_mem_nil, or_false] at h
  rcases h with ((rfl | rfl) | ⟨k, -, rfl⟩) | rfl | h
  · exact .inl ⟨_, rfl⟩
  · exact .inl ⟨_, rfl⟩
  · exact .inl ⟨_, rfl⟩
  · exact .inr (.inl rfl)
  · exact .inr (.inr h)

theorem find?_id : a.treeMembers.find? "id" = some (.text a.id) := rfl

theorem find?_name : a.treeMembers.find? "name" = some (.text a.name) := rfl

theorem find?_value : a.treeMembers.find? "value" = some a.value := by
  cases shown : a.kind <;> simp [treeMembers, shown, Members.find?]

theorem find?_other {name : String} (unknown : name ∉ fieldNames) :
    a.treeMembers.find? name = a.extra.find? name := by
  simp only [fieldNames, List.mem_cons, List.not_mem_nil, or_false, not_or] at unknown
  obtain ⟨id, name', kind, value⟩ := unknown
  cases shown : a.kind <;>
    simp [treeMembers, shown, Members.find?, Ne.symm id, Ne.symm name', Ne.symm kind,
      Ne.symm value]

namespace Sound

theorem nodup (h : a.Sound room) : a.treeMembers.names.Nodup := by
  have extra := h.carried.ascending.nodup
  have unnamed : ∀ name ∈ fieldNames, name ∉ a.extra.names := fun name known =>
    Members.find?_eq_none_iff.1 (h.carried.find?_eq_none known)
  simp only [fieldNames, List.forall_mem_cons] at unnamed
  obtain ⟨id, name, kind, value, -⟩ := unnamed
  simp only [Members.names] at *
  cases shown : a.kind <;> simp_all [treeMembers]

theorem values (h : a.Sound room) {m : String × Value} (hm : m ∈ a.treeMembers) :
    m.2.Ordered ∧ m.2.Fits room := by
  rcases mem_treeMembers hm with ⟨s, text⟩ | value | extra
  · rw [text]
    exact ⟨Value.ordered_text s, .text _ _⟩
  · rw [value]
    exact ⟨h.ordered, h.fits⟩
  · exact ⟨h.carried.ordered m extra, h.carried.fits m extra⟩

theorem tree_fits (h : a.Sound room) : a.tree.Fits (room + 1) :=
  .object fun _ hm => (h.values hm).2

theorem tree_distinct (h : a.Sound room) : a.tree.Distinct :=
  Value.distinct_object_iff.2 ⟨h.nodup, fun _ hm => (h.values hm).1.distinct⟩

/-- The members of the canonical tree. -/
theorem find?_canonical (h : a.Sound room) (name : String) :
    (Members.ofWritten (canonicalMembers a.treeMembers)).find? name = a.treeMembers.find? name :=
  Members.find?_ofWritten_canonicalMembers h.nodup (fun _ hm => (h.values hm).1) name

theorem find?_kind (h : a.Sound room) : a.treeMembers.find? "type" = a.kind.map .text := by
  have extra : Members.find? "type" a.extra = none :=
    h.carried.find?_eq_none (by simp [fieldNames])
  cases shown : a.kind <;> simp [treeMembers, shown, Members.find?, extra]

/-- The same answer is made from its tree. -/
theorem ofWritten?_tree (h : a.Sound room) : ofWritten? a.tree = some a := by
  have extra := h.carried.filter_canonical h.nodup fun _ => find?_other
  have kind : ifGiven (Value.asOptional Value.asText) (a.kind.map Value.text) =
      some (a.kind.map some) := by
    cases a.kind <;> rfl
  rw [ofWritten?_of_distinct h.tree_distinct, tree, Value.canonical_object, ofSorted?, ofMembers?]
  simp only [h.find?_canonical, find?_id, find?_name, h.find?_kind, find?_value, kind, extra]
  have given : (a.kind.map some).getD none = a.kind := by cases a.kind <;> rfl
  simp [ifGiven, Value.asText, given]

end Sound

end Answer

namespace Submission

/-- What a submission that was read is like. Its answers are two brackets further inside. -/
structure Sound (room : Nat) (s : Submission) : Prop where
  answers : ∀ a ∈ s.answers, a.Sound room
  carried : Carried fieldNames (room + 2) s.extra

theorem sound_of_ofSorted? {w : Value} {room : Nat} {s : Submission} (ordered : w.Ordered)
    (fits : w.Fits (room + 3)) (h : ofSorted? w = some s) : s.Sound room := by
  cases w with
  | object ms =>
      simp only [ofSorted?, ofMembers?, Option.map_eq_some_iff] at h
      obtain ⟨answers, given, rfl⟩ := h
      refine ⟨fun a ha => ?_, .of_filter ordered fits⟩
      cases found : Members.find? "questions" ms with
      | none =>
          rw [found] at given
          obtain rfl := Option.some.inj given
          cases ha
      | some v =>
          rw [found] at given
          obtain ⟨as, made, rfl⟩ := Option.map_eq_some_iff.1 given
          have hv := Members.mem_of_find? found
          cases v with
          | array vs =>
              cases fits with
              | object fits =>
                  have ordered := (Value.ordered_object_iff.1 ordered).2 _ hv
                  cases fits _ hv with
                  | array fits =>
                      obtain ⟨w, hw, made⟩ := Value.exists_of_mem_mapM made ha
                      have ordered := Value.ordered_array_iff.1 ordered
                      exact Answer.sound_of_ofSorted? (ordered w hw) (fits w hw) made
          | _ => cases made
  | _ => cases h

/-- No further member has the name of a field. -/
theorem unnamed_of_ofSorted? {w : Value} {s : Submission} (h : ofSorted? w = some s) :
    ∀ m ∈ s.extra, m.1 ∉ fieldNames := by
  cases w with
  | object ms =>
      simp only [ofSorted?, ofMembers?, Option.map_eq_some_iff] at h
      obtain ⟨_, -, rfl⟩ := h
      exact fun m hm => of_decide_eq_true (List.mem_filter.1 hm).2
  | _ => cases h

variable {room : Nat} {s : Submission}

theorem find?_questions :
    s.treeMembers.find? "questions" = some (.array (s.answers.map Answer.tree)) := rfl

theorem find?_other {name : String} (unknown : name ∉ fieldNames) :
    s.treeMembers.find? name = s.extra.find? name := by
  simp only [fieldNames, List.mem_singleton] at unknown
  simp [treeMembers, Members.find?, Ne.symm unknown]

namespace Sound

theorem nodup (h : s.Sound room) : s.treeMembers.names.Nodup := by
  have unnamed : "questions" ∉ s.extra.names :=
    Members.find?_eq_none_iff.1 (h.carried.find?_eq_none (by simp [fieldNames]))
  exact List.nodup_cons.2 ⟨unnamed, h.carried.ascending.nodup⟩

theorem tree_fits (h : s.Sound room) : s.tree.Fits (room + 3) := by
  refine .object fun m hm => ?_
  rcases List.mem_cons.1 hm with rfl | hm
  · refine .array fun v hv => ?_
    obtain ⟨a, ha, rfl⟩ := List.mem_map.1 hv
    exact (h.answers a ha).tree_fits
  · exact h.carried.fits m hm

theorem tree_distinct (h : s.Sound room) : s.tree.Distinct := by
  refine Value.distinct_object_iff.2 ⟨h.nodup, fun m hm => ?_⟩
  rcases List.mem_cons.1 hm with rfl | hm
  · refine Value.distinct_array_iff.2 fun v hv => ?_
    obtain ⟨a, ha, rfl⟩ := List.mem_map.1 hv
    exact (h.answers a ha).tree_distinct
  · exact (h.carried.ordered m hm).distinct

/-- The same submission is made from its tree. -/
theorem ofWritten?_tree (h : s.Sound room) : ofWritten? s.tree = some s := by
  have once := List.nodup_iff_count.1 h.nodup "questions"
  have answers : (s.answers.map Answer.tree).mapM Answer.ofWritten? = some s.answers := by
    refine Value.mapM_eq_some_iff.2 (List.forall₂_map_left_iff.2 (List.forall₂_same.2 ?_))
    exact fun a ha => (h.answers a ha).ofWritten?_tree
  have extra := h.carried.filter_canonical h.nodup fun _ => find?_other
  rw [ofWritten?, tree, Value.asRecord, ofMembers_eq, if_pos once,
    Members.last?_eq_find? h.nodup, find?_questions, ifGiven, Value.asList, answers, extra]
  rfl

end Sound

end Submission

namespace Page

/-- What a page that was read is like. -/
def Sound (room : Nat) (p : Page) : Prop := ∀ s ∈ p.responses, s.Sound room

variable {room : Nat} {p : Page}

theorem nodup_treeMembers (p : Page) : p.treeMembers.names.Nodup := by
  simp [treeMembers, Members.names]

namespace Sound

theorem tree_fits (h : p.Sound room) : p.tree.Fits (room + 5) := by
  refine .object fun m hm => ?_
  simp only [treeMembers, List.mem_cons, List.not_mem_nil, or_false] at hm
  rcases hm with rfl | rfl | rfl
  · refine .array fun v hv => ?_
    obtain ⟨s, hs, rfl⟩ := List.mem_map.1 hv
    exact (h s hs).tree_fits
  · exact .number _ _
  · exact .number _ _

theorem tree_distinct (h : p.Sound room) : p.tree.Distinct := by
  refine Value.distinct_object_iff.2 ⟨p.nodup_treeMembers, fun m hm => ?_⟩
  simp only [treeMembers, List.mem_cons, List.not_mem_nil, or_false] at hm
  rcases hm with rfl | rfl | rfl
  · refine Value.distinct_array_iff.2 fun v hv => ?_
    obtain ⟨s, hs, rfl⟩ := List.mem_map.1 hv
    exact (h s hs).tree_distinct
  · exact Value.distinct_number _
  · exact Value.distinct_number _

/-- The same page is made from its tree. -/
theorem ofMembers_tree (h : p.Sound room) (record : String) :
    (fields record).ofMembers step p.treeMembers = some p := by
  have responses : (Value.array (p.responses.map Submission.tree)).asList Submission.ofWritten? =
      some p.responses := by
    refine Value.mapM_eq_some_iff.2 (List.forall₂_map_left_iff.2 (List.forall₂_same.2 ?_))
    exact fun s hs => (h s hs).ofWritten?_tree
  simp [Decoder.Fields.ofMembers, fields, treeMembers, step, takeField, responses,
    Value.asUnsigned64_natural]
  rfl

end Sound

/-- What is given for the responses fits into the brackets that are left. -/
theorem fits_of_givenResponses {v : Value} {vs : List Value} (fits : v.Fits (room + 5))
    (given : givenResponses v = some (.array vs)) : ∀ w ∈ vs, w.Fits (room + 3) := by
  have inside : (Value.array vs).Fits (room + 4) := by
    cases v with
    | object ms =>
        cases fits with
        | object fits => exact fits _ (Members.mem_of_last? given)
    | array items =>
        cases fits with
        | array fits =>
            cases items with
            | nil => cases given
            | cons first items =>
                obtain rfl := Option.some.inj given
                exact fits _ (List.mem_cons_self ..)
    | _ => cases given
  cases inside with
  | array inside => exact inside

theorem sound_of_ofWritten? {record : String} {v : Value} (fits : v.Fits (room + 5))
    (h : ofWritten? record v = some p) : p.Sound room := by
  obtain ⟨vs, given, made⟩ := responses_of_ofWritten? h
  intro s hs
  obtain ⟨v, hv, made⟩ := Value.exists_of_mem_mapM made hs
  exact Submission.sound_of_ofSorted? (Value.ordered_canonical v)
    (fits_of_givenResponses fits given v hv).canonical (Submission.ofSorted?_of_ofWritten? made)

end Page

end FormSieve
