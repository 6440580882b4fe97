import FormSieve.Proofs.Cli.Filtering
import FormSieve.Proofs.Json.Interpretation
import FormSieve.Proofs.Server.FilterRequest
import FormSieve.Proofs.Server.History
import FormSieve.Proofs.Text.Form

/-!
# The command and the server agree

A page can be filtered by a command, which reads it from its input, and by the server, which has it
from its source. For the same page, filters and limit both come to the same: either both yield the
same document, or both reject the filters for the same reason. The command tells the whole reason,
and the server as much as clients are told.
-/

namespace FormSieve

open Http

/-! ## Pages in texts -/

/-- A record begins with a bracket of one of two kinds. -/
theorem Json.Decoder.exists_skipSpace_of_record {δ α : Type} {fields : Fields δ α} {room : Nat}
    {bs : Bytes} {read : α × Bytes} (h : record fields room bs = .ok read) :
    ∃ b rest, skipSpace bs = b :: rest ∧ (b = Ascii.leftBrace ∨ b = Ascii.leftBracket) := by
  cases begun : skipSpace bs with
  | nil =>
      simp only [record, begun] at h
      cases h
  | cons b rest =>
      refine ⟨b, rest, rfl, ?_⟩
      simp only [record, begun] at h
      split at h
      · next brace => exact .inl brace
      · split at h
        · next bracket => exact .inr bracket
        · obtain ⟨fault, failed⟩ := exists_mismatch (.record fields.record) (b :: rest)
          cases failed.symm.trans h

/-- A text that is read as a page is not blank. -/
theorem Page.not_isBlank_of_decode {text : String} {p : Page}
    (h : Json.decode decoder (Text.bytes text) = .ok p) : Text.isBlank text = false := by
  obtain ⟨rest, read, -⟩ := Json.decode_eq_ok_iff.1 h
  rw [decoder, decoderFor] at read
  obtain ⟨b, left, begun, bracket⟩ := Json.Decoder.exists_skipSpace_of_record read
  have member : b ∈ Text.encode text.toList := by
    rw [← Text.bytes_eq_encode]
    refine (List.dropWhile_sublist Json.isSpace).subset ?_
    rw [show (Text.bytes text).dropWhile Json.isSpace = b :: left from begun]
    exact List.mem_cons_self
  rw [← Bool.not_eq_true, Text.isBlank, List.all_eq_true]
  intro blank
  rcases bracket with rfl | rfl
  · exact absurd (blank _ (Text.mem_of_mem_encode member (by decide))) (by decide)
  · exact absurd (blank _ (Text.mem_of_mem_encode member (by decide))) (by decide)

theorem Cli.readPage_bytes {text : String} {p : Page}
    (h : Json.decode Page.decoder (Text.bytes text) = .ok p) :
    readPage (Text.bytes text) = .ok p := by
  rw [readPage, Text.ofBytes?_bytes]
  simp only [Page.not_isBlank_of_decode h, Bool.false_eq_true, if_false, h]

/-! ## The two ways -/

/-- The command filters the page in its input, or says why it rejects the filters. -/
theorem Cli.filter_of_page {text : String} {p : Page}
    (h : Json.decode Page.decoder (Text.bytes text) = .ok p) (filters : String)
    (limit : PageLimit) :
    Cli.filter filters (some limit.value) (Text.bytes text) =
      match FilterSet.ofParam (.single filters) with
      | .error rejection => .error (.rejected rejection)
      | .ok filters => .ok ((filters.apply p limit).print ++ "\n") := by
  have taken : limitOf (some limit.value) = .ok limit := by
    simp only [limitOf, PageLimit.ofUInt64?_value]
  exact filter_of_read taken (readPage_bytes h)

namespace Server

variable (server : Server) (requestId : String) {request : Request} {m : Memory}
  {formId filters : String} {limit : PageLimit} {p : Page}

/-- The server filters the page in memory, or says that it rejects the filters. -/
theorem answer_of_filters (get : request.method = .get)
    (form : formOf? request.target.path = some formId) (named : Text.isBlank formId = false)
    (held : m.find? formId = some p)
    (given : (FilterRequest.occurrences FilterRequest.filtersParam
      (Form.decode (request.target.query.getD []))).head? = some filters)
    (limited : (FilterRequest.occurrences FilterRequest.limitParam
      (Form.decode (request.target.query.getD []))).head? = some limit.value.toNat.repr) :
    match FilterSet.ofParam (.single filters) with
    | .error rejection =>
      FilterRequest.parse formId (Form.decode (request.target.query.getD []))
          (FilterRequest.authorization request) server.limit = .error rejection ∧
        (server.handle Memory.source requestId request m).answer =
          server.reply request (Route.ofPath? request.target.path)
            (Denial.ofRejection rejection).content
    | .ok clauses =>
      (server.handle Memory.source requestId request m).answer =
        server.reply request (Route.ofPath? request.target.path)
          (.json 200 (FilterSet.apply clauses p limit).print) := by
  obtain ⟨param, found, same⟩ := FilterRequest.ofParam_of_head given
  have limitFound : FilterRequest.limitOf server.limit
      ((Form.decode (request.target.query.getD [])).filter
        (·.1 ≠ FilterRequest.filtersParam)) = .ok limit := by
    refine FilterRequest.limitOf_of_head ?_
    rwa [FilterRequest.occurrences_filter (by decide)]
  have parsed : FilterRequest.parse formId (Form.decode (request.target.query.getD []))
      (FilterRequest.authorization request) server.limit = _ :=
    FilterRequest.parse_of_given found named
  rw [same, limitFound] at parsed
  rw [handle_of_form server Memory.source requestId m (.inl get) form]
  cases valid : FilterSet.ofParam (.single filters) with
  | error rejection =>
      rw [valid] at parsed
      refine ⟨parsed, ?_⟩
      simp only [filteredResponses, parsed]
  | ok clauses =>
      rw [valid] at parsed
      simp only [filteredResponses, parsed, Memory.source, held]

/-- Every form, filters and limit can be asked for. -/
theorem exists_request (formId filters : String) (limit : PageLimit) :
    ∃ request : Request, request.method = .get ∧
      formOf? request.target.path = some formId ∧
      Form.decode (request.target.query.getD []) =
        [("filters", filters), ("limit", limit.value.toNat.repr)] := by
  have notPercent : Ascii.isAlphanumeric Ascii.percent = false := by decide
  have free : Ascii.slash ∉ (Text.bytes formId).flatMap (Percent.written Ascii.isAlphanumeric) := by
    intro member
    obtain ⟨b, -, inside⟩ := List.mem_flatMap.1 member
    have digit : ∀ n < 16, Percent.digitByte n ≠ Ascii.slash := by decide
    refine Percent.forall_mem_written (P := (· ≠ Ascii.slash)) (by decide) digit ?_ _ inside rfl
    rintro kept rfl
    exact absurd kept (by decide)
  refine ⟨⟨.get, ⟨Route.formsPath ++
      (Text.bytes formId).flatMap (Percent.written Ascii.isAlphanumeric) ++ Route.actionPath,
    some (Text.bytes (Form.encode [("filters", filters), ("limit", limit.value.toNat.repr)]))⟩, []⟩,
    rfl, formOf?_eq_some_iff.2 ⟨_, free, rfl, ?_⟩, Form.decode_encode _⟩
  rw [Percent.decode_written_of_not_percent notPercent, Text.ofBytes?_bytes]

/-- For a page in the input of the command and in the memory of the server, and for the same
filters and limit, the command succeeds exactly if the server answers 200, and then it writes the
same document on a line of its own. Otherwise both have rejected the filters, for the same reason,
and the command writes nothing. -/
theorem filter_agrees {text : String} (read : Json.decode Page.decoder (Text.bytes text) = .ok p)
    (get : request.method = .get) (form : formOf? request.target.path = some formId)
    (named : Text.isBlank formId = false) (held : m.find? formId = some p)
    (given : (FilterRequest.occurrences "filters"
      (Form.decode (request.target.query.getD []))).head? = some filters)
    (limited : (FilterRequest.occurrences "limit"
      (Form.decode (request.target.query.getD []))).head? = some limit.value.toNat.repr) :
    let result := Cli.filter filters (some limit.value) (Text.bytes text)
    let answer := (server.handle Memory.source requestId request m).answer
    ((∃ output, result = .ok output) ↔ answer.status = 200) ∧
      (∀ output, result = .ok output → output = answer.body ++ "\n" ∧
        Cli.ending filters (some limit.value) (Text.bytes text) = ⟨output, "", 0⟩) ∧
      ∀ fault, result = .error fault →
        Cli.Fails filters (some limit.value) (Text.bytes text) fault ∧
        ∃ e, FilterSet.ofParam (.single filters) = .error e ∧
          FilterRequest.parse formId (Form.decode (request.target.query.getD []))
            (FilterRequest.authorization request) server.limit = .error e ∧
          fault.code = "FILTER_CLI_INVALID_INPUT" ∧ fault.message = e.detail ∧
          answer.status = 400 ∧
          answer.body =
            Json.printRecord [("message", Json.printText ("Bad Request: " ++ e.message))] := by
  intro result answer
  have filtered : result = _ := Cli.filter_of_page read filters limit
  have answered := answer_of_filters server requestId get form named held given limited
  cases valid : FilterSet.ofParam (.single filters) with
  | ok clauses =>
      rw [valid] at filtered answered
      have success : answer = _ := answered
      rw [filtered, success]
      refine ⟨iff_of_true ⟨_, rfl⟩ rfl, ?_, fun fault failed => nomatch failed⟩
      intro output same
      refine ⟨?_, Cli.ending_of_filter (filtered.trans same)⟩
      rw [← Except.ok.inj same, body_reply_of_get _ _ get]
      rfl
  | error e =>
      rw [valid] at filtered answered
      obtain ⟨parsed, rejected⟩ := answered
      have rejected : answer = _ := rejected
      rw [filtered, rejected]
      refine ⟨iff_of_false (fun ⟨output, same⟩ => nomatch same) ?_, ?_, ?_⟩
      · show (400 : UInt16) ≠ 200
        decide
      · exact fun output same => nomatch same
      · intro fault failed
        have fails := Cli.fails_of_filter (filtered.trans failed)
        obtain rfl := Except.error.inj failed
        exact ⟨fails, e, rfl, parsed, rfl, rfl, rfl, body_reply_of_get _ _ get⟩

/-- A number is no clause. The command says where it stands, and the server does not. -/
theorem filter_agrees_of_number :
    let page : Page := ⟨[], 0, 0⟩
    let text := "[[], 0, 0]"
    let limit : PageLimit := ⟨7, by decide⟩
    let m := Memory.empty.insert "f" page
    let request : Request := ⟨.get, ⟨Text.bytes "/api/forms/f/filteredResponses",
      some (Text.bytes "limit=7&filters=%5B1%5D")⟩, []⟩
    let params := Form.decode (request.target.query.getD [])
    let answer := (handle ⟨{}, .standard, .any⟩ Memory.source "" request m).answer
    Json.decode Page.decoder (Text.bytes text) = .ok page ∧ request.method = .get ∧
      formOf? request.target.path = some "f" ∧ Text.isBlank "f" = false ∧
      m.find? "f" = some page ∧
      (FilterRequest.occurrences "filters" params).head? = some "[1]" ∧
      (FilterRequest.occurrences "limit" params).head? = some limit.value.toNat.repr ∧
      ∃ fault, Cli.filter "[1]" (some limit.value) (Text.bytes text) = .error fault ∧
        Cli.Fails "[1]" (some limit.value) (Text.bytes text) fault ∧
        fault.message = "clause 0: clause must be an object" ∧ answer.status = 400 ∧
        answer.body = "\x7b\"message\":\"Bad Request: Invalid filters\"\x7d" := by
  intro page text limit m request params answer
  have read : Json.decode Page.decoder (Text.bytes text) = .ok page := rfl
  have held : m.find? "f" = some page := by rw [Memory.find?_insert, if_pos rfl]
  have given : (FilterRequest.occurrences "filters" params).head? = some "[1]" := by decide
  have limited : (FilterRequest.occurrences "limit" params).head? =
      some limit.value.toNat.repr := by decide
  have agree := filter_agrees ⟨{}, .standard, .any⟩ "" read rfl (by decide) (by decide) held given
    limited
  have rejects : FilterSet.ofParam (.single "[1]") = .error (.invalidClause 0 .notAnObject) := rfl
  have failed : Cli.filter "[1]" (some limit.value) (Text.bytes text) =
      .error (.rejected (.invalidClause 0 .notAnObject)) := by
    rw [Cli.filter_of_page read, rejects]
  obtain ⟨fails, e, same, -, -, message, status, body⟩ := agree.2.2 _ failed
  obtain rfl := Except.error.inj (rejects.symm.trans same)
  have document : Json.printRecord [("message", Json.printText ("Bad Request: " ++
      Rejection.message (.invalidClause 0 .notAnObject)))] =
      "\x7b\"message\":\"Bad Request: Invalid filters\"\x7d" := by decide
  exact ⟨read, rfl, by decide, by decide, held, given, limited, _, failed, fails,
    message.trans (by decide), status, body.trans document⟩

end Server

end FormSieve
