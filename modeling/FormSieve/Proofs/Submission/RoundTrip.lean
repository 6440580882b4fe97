import FormSieve.Proofs.Server.ConfigDocument
import FormSieve.Proofs.Submission.Form

/-!
# Reading back what is written

Pages and configurations are read back from what is written for them. For pages this is said of
those that were read from some document, in either of the two forms of a page, and in which all
numbers carried along are whole: other numbers are written and read with rounding.
-/

namespace FormSieve

open Json

/-- All numbers in an answer are whole. -/
def Answer.Whole (a : Answer) : Prop := a.value.Whole ∧ ∀ m ∈ a.extra, m.2.Whole

/-- All numbers in the answers of a submission and in what it carries along are whole. -/
def Submission.Whole (s : Submission) : Prop :=
  (∀ a ∈ s.answers, a.Whole) ∧ ∀ m ∈ s.extra, m.2.Whole

/-- All numbers in the submissions of a page are whole. -/
def Page.Whole (p : Page) : Prop := ∀ s ∈ p.responses, s.Whole

theorem Answer.Whole.tree {a : Answer} (h : a.Whole) : a.tree.Whole := by
  refine Value.whole_object_iff.2 fun m hm => ?_
  rcases Answer.mem_treeMembers hm with ⟨s, text⟩ | value | extra
  · rw [text]
    exact Value.whole_text s
  · rw [value]
    exact h.1
  · exact h.2 m extra

theorem Submission.Whole.tree {s : Submission} (h : s.Whole) : s.tree.Whole := by
  refine Value.whole_object_iff.2 fun m hm => ?_
  rcases List.mem_cons.1 hm with rfl | hm
  · refine Value.whole_array_iff.2 fun v hv => ?_
    obtain ⟨a, ha, rfl⟩ := List.mem_map.1 hv
    exact (h.1 a ha).tree
  · exact h.2 m hm

theorem Page.Whole.tree {p : Page} (h : p.Whole) : p.tree.Whole := by
  refine Value.whole_object_iff.2 fun m hm => ?_
  simp only [treeMembers, List.mem_cons, List.not_mem_nil, or_false] at hm
  rcases hm with rfl | rfl | rfl
  · refine Value.whole_array_iff.2 fun v hv => ?_
    obtain ⟨s, hs, rfl⟩ := List.mem_map.1 hv
    exact (h s hs).tree
  · exact Value.whole_integer _ _
  · exact Value.whole_integer _ _

theorem Config.tree_whole (c : Config) : c.tree.Whole := by
  refine Value.whole_object_iff.2 fun m hm => ?_
  simp only [treeMembers, List.mem_cons, List.not_mem_nil, or_false] at hm
  rcases hm with rfl | rfl | rfl | rfl | rfl | rfl
  · exact Value.whole_text _
  · exact Value.whole_integer _ _
  · refine Value.whole_array_iff.2 fun v hv => ?_
    obtain ⟨origin, -, rfl⟩ := List.mem_map.1 hv
    exact Value.whole_text _
  · cases shown : c.providerBase with
    | none => exact Value.whole_null
    | some base => exact Value.whole_text _
  · exact Value.whole_boolean _
  · exact Value.whole_integer _ _

/-! ## What was read is sound -/

/-- A page that was read is sound. -/
theorem Page.sound_of_decode {record : String} {document : Bytes} {p : Page}
    (h : decode (Page.decoderFor record) document = .ok p) : p.Sound 122 := by
  obtain ⟨v, read, made⟩ := (decode_eq_ok_iff_of_follows (decoderFor_follows record)).1 h
  obtain ⟨rest, read, -⟩ := decode_eq_ok_iff.1 read
  exact sound_of_ofWritten? (outline_fits _ _ _ v rest read) made

/-- A sound page is read back, under either name. -/
theorem Page.Sound.decode_print {p : Page} (h : p.Sound 122) (whole : p.Whole) (record : String) :
    decode (Page.decoderFor record) (Text.bytes p.print) = .ok p := by
  rw [print_eq_print_tree]
  refine decode_print_of_record (fun room draft name bs => member_follows room draft name bs) ?_
    (h.ofMembers_tree record) h.tree_fits whole.tree
  simp [treeMembers, fieldNames]

/-- Every configuration is read back. -/
theorem Config.decode_print (c : Config) :
    decode Config.decoder (Text.bytes c.print) = .ok c := by
  rw [print_eq_print_tree]
  refine decode_print_of_record (fun room draft name bs => member_follows room draft name bs) ?_
    c.ofMembers_tree c.tree_fits c.tree_whole
  simp [treeMembers, fieldNames]

theorem Config.tree_distinct (c : Config) : c.tree.Distinct := by
  refine Value.distinct_object_iff.2 ⟨by simp [treeMembers, Members.names], fun m hm => ?_⟩
  simp only [treeMembers, List.mem_cons, List.not_mem_nil, or_false] at hm
  rcases hm with rfl | rfl | rfl | rfl | rfl | rfl
  · exact (Value.ordered_text _).distinct
  · exact Value.distinct_number _
  · refine Value.distinct_array_iff.2 fun v hv => ?_
    obtain ⟨origin, -, rfl⟩ := List.mem_map.1 hv
    exact (Value.ordered_text _).distinct
  · cases shown : c.providerBase with
    | none => exact Value.ordered_null.distinct
    | some base => exact (Value.ordered_text _).distinct
  · simp [Value.Distinct, Value.everywhere_boolean]
  · exact Value.distinct_number _

/-- What is written for a page that was read, or for a configuration, has no repeated members and
stays within the brackets that a reader allows, and it is read back as the same page or
configuration; for pages if all numbers that they carry along are whole. A page that is left after
filtering is also read back as one that a provider hands out. No member that is carried along has
the name of a field. -/
theorem wire_round_trip :
    (∀ (document : Bytes) (p : Page),
      decode Page.decoder document = .ok p ∨ decode Page.filteredDecoder document = .ok p →
        p.print = p.tree.print ∧ p.tree.Distinct ∧ p.tree.Fits maxDepth ∧
          (p.Whole →
            decode valueAsWritten (Text.bytes p.print) = .ok p.tree ∧
              decode Page.decoder (Text.bytes p.print) = .ok p ∧
              decode Page.filteredDecoder (Text.bytes p.print) = .ok p)) ∧
      (∀ room bs s rest, Submission.decoder room bs = .ok (s, rest) →
        ∀ m ∈ s.extra, m.1 ∉ ["questions"]) ∧
      (∀ room bs a rest, Answer.decoder room bs = .ok (a, rest) →
        ∀ m ∈ a.extra, m.1 ∉ ["id", "name", "type", "value"]) ∧
      ∀ c : Config, c.print = c.tree.print ∧ c.tree.Distinct ∧ c.tree.Fits maxDepth ∧
        decode valueAsWritten (Text.bytes c.print) = .ok c.tree ∧
        decode Config.decoder (Text.bytes c.print) = .ok c := by
  refine ⟨fun document p read => ?_, fun room bs s rest read => ?_, fun room bs a rest read => ?_,
    fun c => ⟨c.print_eq_print_tree, c.tree_distinct, c.tree_fits, ?_, c.decode_print⟩⟩
  · have sound : p.Sound 122 := read.elim Page.sound_of_decode Page.sound_of_decode
    refine ⟨p.print_eq_print_tree, sound.tree_distinct, sound.tree_fits, fun whole => ?_⟩
    refine ⟨?_, sound.decode_print whole _, sound.decode_print whole _⟩
    rw [p.print_eq_print_tree]
    exact decode_print_of_whole sound.tree_fits whole.tree
  · obtain ⟨v, -, made⟩ := (Submission.decoder_interprets room bs s rest).1 read
    exact Submission.unnamed_of_ofSorted? (Submission.ofSorted?_of_ofWritten? made)
  · obtain ⟨v, -, made⟩ := (Answer.decoder_interprets room bs a rest).1 read
    exact Answer.unnamed_of_ofSorted? (Answer.ofSorted?_of_ofWritten? made)
  · rw [c.print_eq_print_tree]
    exact decode_print_of_whole c.tree_fits c.tree_whole

/-- An answer without a name and with a list for its value, next to other members. -/
theorem wire_round_trip_of_answer :
    let p : Page :=
      ⟨[⟨[⟨"q", "", none, .array [.number (.integer (-5) (by decide)), .null], []⟩],
        [("s", .text "\n")]⟩], 1, 1⟩
    let document := Text.bytes ("\x7b\"responses\":[\x7b\"s\":\"\\n\",\"questions\":[" ++
      "\x7b\"value\":[-5, null],\"type\":null,\"id\":\"q\"\x7d]\x7d]," ++
      "\"pageCount\":1,\"totalResponses\":1\x7d")
    decode Page.decoder document = .ok p ∧ p.Whole ∧
      decode Page.decoder (Text.bytes p.print) = .ok p := by
  intro p document
  have read : decode Page.decoder document = .ok p := rfl
  have whole : p.Whole := by
    simp [p, Page.Whole, Submission.Whole, Answer.Whole, Value.whole_array_iff, Value.whole_null,
      Value.whole_text, Value.whole_integer]
  exact ⟨read, whole, ((wire_round_trip.1 document p (.inl read)).2.2.2 whole).2.1⟩

end FormSieve
