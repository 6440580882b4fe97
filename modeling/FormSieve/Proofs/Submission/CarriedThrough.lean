import FormSieve.Filter.Matching
import FormSieve.Proofs.Json.Document
import FormSieve.Proofs.Submission.NormalForm

/-!
# What filtering carries through

A submission that was read from a document, alone or in a page, is written again as the
document's own value in its normal form, and filtering keeps some of the submissions of a page as
they are. How the document is spelled and in which order it gives the members does not matter.
-/

namespace FormSieve

open Json

/-- The members that a page does not know do not bear on its responses. -/
theorem Page.givenResponses_keeping (w : Value) :
    givenResponses (w.keeping (· ∈ fieldNames)) = givenResponses w := by
  cases w with
  | object ms =>
      change Members.last? "responses" (ms.filter fun m => decide (m.1 ∈ fieldNames)) = _
      have same : ∀ m : String × Value,
          (decide (m.1 = "responses") && decide (m.1 ∈ fieldNames)) =
            decide (m.1 = "responses") := by
        intro m
        by_cases here : m.1 = "responses" <;> simp [here, fieldNames]
      simp only [Members.last?, List.filter_filter, same, givenResponses]
  | _ => rfl

/-- The trees of the responses of a page are the normal forms of the values that are given. -/
theorem Page.trees_of_ofWritten? {record : String} {v : Value} {room : Nat} {p : Page}
    (fits : v.Fits (room + 5)) (h : ofWritten? record v = some p) :
    ∃ vs, givenResponses v = some (.array vs) ∧
      (p.responses.map fun s => s.tree.canonical) =
        vs.map fun v => Submission.normalForm v.canonical := by
  obtain ⟨vs, given, made⟩ := responses_of_ofWritten? h
  refine ⟨vs, given, Value.map_eq_map_of_mapM made fun v hv s made => ?_⟩
  exact Submission.tree_canonical_of_ofWritten? (fits_of_givenResponses fits given v hv) made

/-- A submission that was read from a document is written as the tree that is, with the members
in order, the normal form of the document's value.

So is each response of a page that was read, and each of those that are kept by a filter. What
the document gives for the responses is seen in reading it without the members that a page does
not know, which need not be values at all.

Of documents that spell values without repeated members, in whatever way, and differ in nothing
but the order of members, the same is read and thus the same written; for pages it is enough that
the members that a page knows are so. -/
theorem Submission.carried_through :
    (∀ (document : Bytes) (s : Submission), decode Submission.decoder document = .ok s →
      ∃ v, decode Decoder.value document = .ok v ∧
        s.print = s.tree.print ∧ s.tree.canonical = normalForm v) ∧
    (∀ (document : Bytes) (p : Page), decode Page.decoder document = .ok p →
      ∃ vs,
        (∃ v, decode (outline (· ∈ Page.fieldNames)) document = .ok v ∧
          Page.givenResponses v = some (.array vs)) ∧
        (∀ w, decode valueAsWritten document = .ok w →
          Page.givenResponses w = some (.array vs)) ∧
        (p.responses.map fun s => s.tree.canonical) =
          (vs.map fun v => normalForm v.canonical) ∧
        ∀ (filters : FilterSet) (limit : PageLimit),
          (filters.apply p limit).print = (filters.apply p limit).tree.print ∧
            ((filters.apply p limit).responses.map fun s => s.tree.canonical).Sublist
              (vs.map fun v => normalForm v.canonical)) ∧
    (∀ (v v' : Value) (document document' : Bytes), v.SpelledBy document →
      v'.SpelledBy document' → v.Reordered v' → v.Distinct →
        (∀ s, decode Submission.decoder document = .ok s ↔
          decode Submission.decoder document' = .ok s) ∧
        ∀ p, decode Page.decoder document = .ok p ↔ decode Page.decoder document' = .ok p) ∧
    ∀ (v v' : Value) (document document' : Bytes),
      decode (outline (· ∈ Page.fieldNames)) document = .ok v →
      decode (outline (· ∈ Page.fieldNames)) document' = .ok v' → v.Reordered v' → v.Distinct →
        ∀ p, decode Page.decoder document = .ok p ↔ decode Page.decoder document' = .ok p := by
  have page := Page.decoderFor_follows "SubmissionsPage"
  have alone : ∀ room bs, (Submission.decoder room bs).Follows (outline (fun _ => true) room bs)
      Submission.ofWritten? := by
    intro room bs
    rw [outline_all]
    exact Submission.decoder_interprets room bs
  refine ⟨fun document s read => ?_, fun document p read => ?_, ?_, ?_⟩
  · obtain ⟨v, read, made⟩ := (decode_eq_ok_iff_of_follows Submission.decoder_interprets).1 read
    obtain ⟨rest, inside, -⟩ := decode_eq_ok_iff.1 read
    have fits : v.Fits (124 + 3) := valueAsWritten_fits _ _ v rest inside
    exact ⟨v.canonical, by rw [decode_value_eq, read]; rfl, s.print_eq_print_tree,
      tree_canonical_of_ofWritten? fits made⟩
  · obtain ⟨v, read, made⟩ := (decode_eq_ok_iff_of_follows page).1 read
    obtain ⟨rest, inside, blank⟩ := decode_eq_ok_iff.1 read
    have fits : v.Fits (122 + 5) := outline_fits _ _ _ v rest inside
    obtain ⟨vs, given, trees⟩ := Page.trees_of_ofWritten? fits made
    refine ⟨vs, ⟨v, read, given⟩, fun w whole => ?_, trees, fun filters limit =>
      ⟨Page.print_eq_print_tree _, ?_⟩⟩
    · obtain ⟨rest', whole, -⟩ := decode_eq_ok_iff.1 whole
      have kept := outline_of_valueAsWritten (· ∈ Page.fieldNames) whole
      rw [kept] at inside
      cases inside
      rwa [Page.givenResponses_keeping] at given
    · rw [← trees]
      exact List.filter_sublist.map _
  · intro v v' document document' h h' reordered distinct
    exact ⟨fun s => decode_eq_ok_iff_of_spelledBy alone (fun _ => ofWritten?_of_distinct) h h'
        reordered distinct,
      fun p => decode_eq_ok_iff_of_spelledBy page (fun _ => Page.ofWritten?_of_distinct _) h h'
        reordered distinct⟩
  · intro v v' document document' read read' reordered distinct p
    exact decode_eq_ok_iff_of_reordered page (fun _ => Page.ofWritten?_of_distinct _) read read'
      reordered distinct

/-- A question without a name and with a type that is `null`, next to a member that is given
twice, alone and in a page; and members in either order, also next to one that is not read. -/
theorem Submission.carried_through_repeated :
    let s : Submission :=
      ⟨[⟨"q", "", none, .null, [("x", .array [.null])]⟩], [("a", .boolean true)]⟩
    let text := "\x7b\"a\":1,\"questions\":[\x7b\"x\": [null],\"type\":null," ++
      "\"id\":\"\\u0071\"\x7d],\"a\":true\x7d"
    let page := Text.bytes ("[[" ++ text ++ "],1,1]")
    let v : Value := .object [("b", .null), ("a", .text "")]
    let v' : Value := .object [("a", .text ""), ("b", .null)]
    let known := Text.bytes
      "\x7b\"totalResponses\":0,\"responses\":[],\"pageCount\":0,\"x\":1e999\x7d"
    let known' := Text.bytes "\x7b\"responses\":[],\"totalResponses\":0,\"pageCount\":0\x7d"
    (decode Submission.decoder (Text.bytes text) = .ok s ∧
      ∃ w, decode Decoder.value (Text.bytes text) = .ok w ∧ s.tree.canonical = normalForm w) ∧
    (decode Page.decoder page = .ok ⟨[s], 1, 1⟩ ∧
      ∃ vs : List Value, [s.tree.canonical] = vs.map fun w => normalForm w.canonical) ∧
    (∀ s, decode Submission.decoder (Text.bytes v.print) = .ok s ↔
      decode Submission.decoder (Text.bytes v'.print) = .ok s) ∧
    ∀ p, decode Page.decoder known = .ok p ↔ decode Page.decoder known' = .ok p := by
  intro s text page v v' known known'
  obtain ⟨alone, pages, spelled, kept⟩ := Submission.carried_through
  have read : decode Submission.decoder (Text.bytes text) = .ok s := rfl
  have read' : decode Page.decoder page = .ok ⟨[s], 1, 1⟩ := rfl
  refine ⟨⟨read, ?_⟩, ⟨read', ?_⟩, ?_, ?_⟩
  · obtain ⟨w, value, -, same⟩ := alone _ s read
    exact ⟨w, value, same⟩
  · obtain ⟨vs, -, -, same, -⟩ := pages _ _ read'
    exact ⟨vs, same⟩
  · have fits : v.Fits 1 := .object (by simp [Value.Fits.null, Value.Fits.text])
    have whole : v.Whole := by
      simp [v, Value.whole_object_iff, Value.whole_null, Value.whole_text]
    have whole' : v'.Whole := by
      simp [v', Value.whole_object_iff, Value.whole_null, Value.whole_text]
    have distinct : v.Distinct := by
      simp [v, Value.distinct_object_iff, Members.names, Value.ordered_null.distinct,
        (Value.ordered_text _).distinct]
    have swapped : v.Reordered v' := .swap [] _ _ []
    exact (spelled v v' _ _ (Value.spelledBy_print fits whole)
      (Value.spelledBy_print (swapped.fits fits) whole') swapped distinct).1
  · let zero : Value := .number (.integer 0 (by decide))
    have all : decode (outline (· ∈ Page.fieldNames)) known = .ok
        (.object [("totalResponses", zero), ("responses", .array []), ("pageCount", zero)]) := rfl
    have all' : decode (outline (· ∈ Page.fieldNames)) known' = .ok
        (.object [("responses", .array []), ("totalResponses", zero), ("pageCount", zero)]) := rfl
    refine kept _ _ known known' all all' (.swap [] _ _ _) (Value.distinct_object_iff.2 ⟨?_, ?_⟩)
    · simp [Members.names]
    · simp [zero, Value.distinct_number, Value.distinct_array_iff]

end FormSieve
