import FormSieve.Proofs.Submission.Form

/-!
# What is carried through unchanged

The tree of a submission that was read is the document's own value in its normal form: the list
of questions is there, each question has a name and a value, and a type that is `null` is left
out. Everything else is as in the document, however deeply it is nested.
-/

namespace FormSieve

open Json

namespace Json.Members

/-- The members, with `value` under `name` unless there is a member of that name. -/
def complete (name : String) (value : Value) (ms : Members) : Members :=
  if (ms.find? name).isSome then ms else ms.insert name value

/-- The members, without the one of that name. -/
def without (name : String) (ms : Members) : Members := ms.filter (·.1 ≠ name)

theorem find?_complete (name other : String) (value : Value) (ms : Members) :
    (ms.complete name value).find? other =
      if other = name then some ((ms.find? name).getD value) else ms.find? other := by
  rw [complete]
  cases found : ms.find? name with
  | none => simp [find?_insert]
  | some v =>
      by_cases same : other = name
      · subst same
        simp [found]
      · simp [same]

theorem find?_without (name other : String) (ms : Members) :
    (ms.without name).find? other = if other = name then none else ms.find? other := by
  rw [without, find?_filter fun other => other ≠ name]
  by_cases same : other = name <;> simp [same]

theorem Ascending.complete {ms : Members} (h : ms.Ascending) (name : String) (value : Value) :
    (ms.complete name value).Ascending := by
  rw [Members.complete]
  split
  · exact h
  · exact h.insert _ _

theorem Ascending.without {ms : Members} (h : ms.Ascending) (name : String) :
    (ms.without name).Ascending :=
  h.filter _

end Json.Members

/-- A value other than `null`. -/
def notNull : Option Value → Option Value
  | some .null => none
  | o => o

/-- A text that was read, if it was given. -/
theorem eq_of_ifGiven_asText {o : Option Value} {given : Option String}
    (h : ifGiven Value.asText o = some given) : o = given.map .text := by
  cases o with
  | none =>
      obtain rfl := Option.some.inj h
      rfl
  | some v =>
      cases v with
      | text s =>
          obtain rfl := Option.some.inj h
          rfl
      | _ => cases h

/-- A text or `null` that was read, if it was given. -/
theorem eq_of_ifGiven_asOptional {o : Option Value} {given : Option (Option String)}
    (h : ifGiven (Value.asOptional Value.asText) o = some given) :
    o = given.map fun k => k.elim .null .text := by
  cases o with
  | none =>
      obtain rfl := Option.some.inj h
      rfl
  | some v =>
      cases v with
      | null =>
          obtain rfl := Option.some.inj h
          rfl
      | text s =>
          obtain rfl := Option.some.inj h
          rfl
      | _ => cases h

namespace Answer

/-- The normal form of the members of an answer. -/
def normalMembers (ms : Members) : Members :=
  let completed := (ms.complete "name" (.text "")).complete "value" .null
  match ms.find? "type" with
  | some .null => completed.without "type"
  | _ => completed

/-- The normal form of an answer as a value. -/
def normalForm : Value → Value
  | .object ms => .object (normalMembers ms)
  | v => v

theorem ascending_normalMembers {ms : Members} (h : ms.Ascending) :
    (normalMembers ms).Ascending := by
  have completed := (h.complete "name" (.text "")).complete "value" .null
  rw [normalMembers]
  split
  · exact completed.without "type"
  · exact completed

/-- A member of the normal form. -/
theorem find?_normalMembers (name : String) (ms : Members) :
    (normalMembers ms).find? name =
      if name = "name" then some ((ms.find? "name").getD (.text ""))
      else if name = "value" then some ((ms.find? "value").getD .null)
      else if name = "type" then notNull (ms.find? "type") else ms.find? name := by
  rw [normalMembers]
  split
  · next null =>
    simp only [Members.find?_without, Members.find?_complete, null, notNull]
    by_cases type : name = "type" <;> by_cases value : name = "value" <;>
      by_cases name' : name = "name" <;> simp_all
  · next other =>
    have kept : notNull (ms.find? "type") = ms.find? "type" := by
      unfold notNull
      split
      · next null => exact absurd null other
      · rfl
    simp only [Members.find?_complete, kept]
    by_cases type : name = "type" <;> by_cases value : name = "value" <;>
      by_cases name' : name = "name" <;> simp_all

/-- The tree of an answer is the normal form of the value that describes it. -/
theorem tree_canonical_of_ofSorted? {w : Value} {room : Nat} {a : Answer} (ordered : w.Ordered)
    (fits : w.Fits (room + 1)) (h : ofSorted? w = some a) : a.tree.canonical = normalForm w := by
  have sound := sound_of_ofSorted? ordered fits h
  cases w with
  | object ms =>
      have ascending := (Value.ordered_object_iff.1 ordered).1
      rw [tree, Value.canonical_object, normalForm]
      refine congrArg Value.object ?_
      refine (Members.ascending_ofWritten _).ext (ascending_normalMembers ascending) fun name => ?_
      rw [sound.find?_canonical, find?_normalMembers]
      simp only [ofSorted?, ofMembers?, Option.bind_eq_some_iff, Option.map_eq_some_iff] at h
      obtain ⟨_, hid, name', hname, kind, hkind, id, rfl, rfl⟩ := h
      rw [eq_of_ifGiven_asText hname, eq_of_ifGiven_asOptional hkind]
      by_cases known : name ∈ fieldNames
      · simp only [fieldNames, List.mem_cons, List.not_mem_nil, or_false] at known
        rcases known with rfl | rfl | rfl | rfl
        · simp [find?_id, eq_of_ifGiven_asText hid]
        · rw [find?_name, if_pos rfl]
          cases name' <;> rfl
        · rw [sound.find?_kind]
          rcases kind with _ | _ | k <;> simp [notNull]
        · rw [find?_value]
          simp
      · rw [find?_other known, Members.find?_filter (fun name => name ∉ fieldNames)]
        simp only [fieldNames, List.mem_cons, List.not_mem_nil, or_false, not_or] at known
        simp [known, fieldNames]
  | _ => cases h

end Answer

namespace Submission

/-- The normal form of the members of a submission. -/
def normalMembers (ms : Members) : Members :=
  match ms.find? "questions" with
  | none => ms.insert "questions" (.array [])
  | some (.array vs) => ms.insert "questions" (.array (vs.map Answer.normalForm))
  | some _ => ms

/-- The normal form of a submission as a value. -/
def normalForm : Value → Value
  | .object ms => .object (normalMembers ms)
  | v => v

theorem ascending_normalMembers {ms : Members} (h : ms.Ascending) :
    (normalMembers ms).Ascending := by
  rw [normalMembers]
  split
  · exact h.insert _ _
  · exact h.insert _ _
  · exact h

/-- Only the questions of a normal form differ. -/
theorem find?_normalMembers {name : String} (other : name ≠ "questions") (ms : Members) :
    (normalMembers ms).find? name = ms.find? name := by
  rw [normalMembers]
  split
  · rw [Members.find?_insert, if_neg other]
  · rw [Members.find?_insert, if_neg other]
  · rfl

/-- The trees of the answers are the normal forms of the questions. -/
theorem find?_questions_normalMembers {ms : Members} {room : Nat}
    (ordered : ∀ m ∈ ms, m.2.Ordered) (fits : ∀ m ∈ ms, m.2.Fits (room + 2))
    {given : Option (List Answer)}
    (h : ifGiven (Value.asList Answer.ofSorted?) (ms.find? "questions") = some given) :
    (normalMembers ms).find? "questions" =
      some (.array ((given.getD []).map fun a => a.tree.canonical)) := by
  rw [normalMembers]
  cases found : ms.find? "questions" with
  | none =>
      rw [found] at h
      obtain rfl := Option.some.inj h
      simp [Members.find?_insert]
  | some v =>
      rw [found] at h
      obtain ⟨as, made, rfl⟩ := Option.map_eq_some_iff.1 h
      have hv := Members.mem_of_find? found
      cases v with
      | array vs =>
          have ordered := Value.ordered_array_iff.1 (ordered _ hv)
          cases fits _ hv with
          | array fits =>
              have same : as.map (fun a => a.tree.canonical) = vs.map Answer.normalForm :=
                Value.map_eq_map_of_mapM made fun w hw a made =>
                  Answer.tree_canonical_of_ofSorted? (ordered w hw) (fits w hw) made
              simp [Members.find?_insert, same]
      | _ => cases made

/-- The tree of a submission is the normal form of the value that describes it. -/
theorem tree_canonical_of_ofSorted? {w : Value} {room : Nat} {s : Submission}
    (ordered : w.Ordered) (fits : w.Fits (room + 3)) (h : ofSorted? w = some s) :
    s.tree.canonical = normalForm w := by
  have sound := sound_of_ofSorted? ordered fits h
  cases w with
  | object ms =>
      obtain ⟨ascending, values⟩ := Value.ordered_object_iff.1 ordered
      cases fits with
      | object fits =>
          rw [tree, Value.canonical_object, normalForm]
          refine congrArg Value.object ?_
          refine (Members.ascending_ofWritten _).ext (ascending_normalMembers ascending)
            fun name => ?_
          obtain ⟨given, hgiven, rfl⟩ := Option.map_eq_some_iff.1 h
          rw [Members.find?_canonical, Members.last?_eq_find? sound.nodup]
          by_cases known : name ∈ fieldNames
          · obtain rfl := List.mem_singleton.1 known
            rw [find?_questions, find?_questions_normalMembers values fits hgiven]
            simp
          · rw [find?_other known, find?_normalMembers (by simpa [fieldNames] using known),
              Members.find?_filter (fun name => name ∉ fieldNames), if_pos (decide_eq_true known)]
            cases found : Members.find? name ms with
            | none => rfl
            | some v =>
                rw [Option.map_some, (values _ (Members.mem_of_find? found)).canonical_eq]
  | _ => cases h

/-- The tree of a submission is the normal form of what it was made of. -/
theorem tree_canonical_of_ofWritten? {v : Value} {room : Nat} {s : Submission}
    (fits : v.Fits (room + 3)) (h : ofWritten? v = some s) :
    s.tree.canonical = normalForm v.canonical :=
  tree_canonical_of_ofSorted? (Value.ordered_canonical v) fits.canonical
    (ofSorted?_of_ofWritten? h)

end Submission

end FormSieve
