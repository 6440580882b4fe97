import FormSieve.Proofs.Filter.Validation
import FormSieve.Proofs.Server.Delivery
import FormSieve.Proofs.Server.FilterRequest

/-!
# What is logged of a request

A request that reaches the route is logged by one line, and no other request is logged. The line
tells which of three things became of the request: it was rejected, or its fetch failed, or filters
were applied to a page. What the line says besides is what the parts of the server say on their own:
the rejection, the failure, the text of the filters and the page that is answered.
-/

namespace FormSieve

open Http Json

/-- A request that reaches the route to the filtered submissions of the form `formId`. -/
def Http.Request.AsksFor (request : Request) (formId : String) : Prop :=
  (request.method = .get ∨ request.method = .head) ∧
    ∃ segment, Ascii.slash ∉ segment ∧
      request.target.path = Route.formsPath ++ segment ++ Route.actionPath ∧
      Text.ofBytes? (Percent.decode segment) = some formId

/-! ## The clauses of a request -/

theorem FilterParam.first?_of_ofOccurrences {texts : List String} {param : FilterParam}
    (h : ofOccurrences texts = some param) : param.first? = texts.head? := by
  cases texts with
  | nil => exact nomatch h
  | cons text more =>
      cases more with
      | nil =>
          obtain rfl := Option.some.inj h
          rfl
      | cons next more =>
          obtain rfl := Option.some.inj h
          rfl

/-- What is accepted is the filters of the text that counts. -/
theorem FilterSet.ofParam_eq_ok {param : FilterParam} {filters : FilterSet}
    (h : ofParam param = .ok filters) :
    ∃ text, param.first? = some text ∧ ofText text = .ok filters := by
  rw [ofParam] at h
  cases first : param.first? with
  | none => simp [first] at h
  | some text =>
      simp only [first] at h
      split at h
      · exact nomatch h
      · exact ⟨text, rfl, h⟩

/-- A text gives as many clauses as its list has items. -/
theorem FilterSet.items_of_ofText {text : String} {filters : FilterSet}
    (h : ofText text = .ok filters) :
    ∃ items, decode Decoder.value (Text.bytes text) = .ok (.array items) ∧
      items.length = filters.length := by
  obtain ⟨items, read, described⟩ := (ofText_eq_ok_iff text filters).1 h
  refine ⟨items.map Value.canonical, ?_, ?_⟩
  · rw [decode_value_eq, read, ← Value.canonical_array]
    rfl
  · rw [List.length_map, described.length_eq]

/-- An acceptable request has as many clauses as the first of its filters has items. -/
theorem FilterRequest.items_of_parse {formId : String} {params : List (String × String)}
    {authorization : Option String} {standard : PageLimit} {wanted : FilterRequest}
    (h : parse formId params authorization standard = .ok wanted) :
    ∃ text items, (occurrences filtersParam params).head? = some text ∧
      decode Decoder.value (Text.bytes text) = .ok (.array items) ∧
      items.length = wanted.filters.length := by
  obtain ⟨param, given, -, valid, -⟩ := parse_eq_ok_iff.1 h
  obtain ⟨text, first, described⟩ := FilterSet.ofParam_eq_ok valid
  obtain ⟨items, read, many⟩ := FilterSet.items_of_ofText described
  exact ⟨text, items, FilterParam.first?_of_ofOccurrences given ▸ first, read, many⟩

/-! ## Streams -/

/-- A single line is all that its stream gets, and the other stream gets nothing. -/
theorem written_single (stream : Stream) (line : LogLine) :
    written stream [line] = if line.severity.stream = stream then line.render else "" := by
  rw [written]
  by_cases own : line.severity.stream = stream
  · simp [own, String.join]
  · simp [own, String.join]

namespace Server

/-! ## Requests that do not reach the route -/

section Unlogged

variable {σ : Type} (server : Server) (source : Source σ) (requestId : String)
  {request : Request} (state : σ)

theorem log_respond_of_not_asked (method : request.method = .get ∨ request.method = .head)
    {route : Route} (path : Route.ofPath? request.target.path = some route)
    (h : ∀ formId, ¬request.AsksFor formId) :
    (server.respond source requestId route request state).log = [] := by
  cases route with
  | health => rfl
  | filteredResponses segment =>
      obtain ⟨free, same⟩ := Route.ofPath?_eq_filteredResponses_iff.1 path
      cases named : Route.formId? segment with
      | none => simp only [respond, named]
      | some formId => exact absurd ⟨method, segment, free, same, named⟩ (h formId)

theorem log_handle_of_not_asked (h : ∀ formId, ¬request.AsksFor formId) :
    (server.handle source requestId request state).log = [] := by
  rcases server.handle_cases request with ⟨route, method, path, handled⟩ | ⟨answer, handled⟩
  · rw [handled]
    exact log_respond_of_not_asked server source requestId state method path h
  · rw [handled]

end Unlogged

/-! ## What becomes of a request -/

section Logged

variable {σ : Type} {server : Server} {source : Source σ} {requestId formId : String}
  {request : Request} {state : σ} {wanted : FilterRequest}

/-- The line of a rejected request. -/
def rejectedLine (requestId formId : String) (rejection : Rejection) : LogLine :=
  ⟨.warning, "FILTERS_REJECTED",
    [("request_id", requestId), ("form_id", formId), ("reason", rejection.detail)]⟩

/-- The line of a request whose fetch fails. -/
def failedLine (requestId formId : String) (failure : Failure) : LogLine :=
  ⟨.error, "UPSTREAM_FAILED",
    [("request_id", requestId), ("form_id", formId), ("error", failure.message)]⟩

/-- The line of a request that is answered with what is left of a page. -/
def appliedLine (requestId formId : String) (clauses : Nat) (page filtered : Page) : LogLine :=
  ⟨.info, "FILTERS_APPLIED",
    [("request_id", requestId), ("form_id", formId), ("clauses", clauses.repr),
      ("original", page.responses.length.repr), ("matched", filtered.responses.length.repr),
      ("total_responses", filtered.totalResponses.toNat.repr),
      ("page_count", filtered.pageCount.toNat.repr)]⟩

theorem handle_of_rejected {rejection : Rejection} (asks : request.AsksFor formId)
    (parsed : FilterRequest.parse formId (Form.decode (request.target.query.getD []))
      (FilterRequest.authorization request) server.limit = .error rejection) :
    let handled := server.handle source requestId request state
    handled.log = [rejectedLine requestId formId rejection] ∧ handled.answer.status = 400 := by
  rw [handle_of_form server source requestId state asks.1 (formOf?_eq_some_iff.2 asks.2)]
  simp only [filteredResponses, parsed]
  exact ⟨rfl, rfl⟩

theorem handle_of_failed {failure : Failure} (asks : request.AsksFor formId)
    (parsed : FilterRequest.parse formId (Form.decode (request.target.query.getD []))
      (FilterRequest.authorization request) server.limit = .ok wanted)
    (fetched : (source.fetch formId wanted.query state).1 = .error failure) :
    let handled := server.handle source requestId request state
    handled.log = [failedLine requestId formId failure] ∧
      handled.answer.status = (Denial.ofFailure failure).content.status := by
  rw [handle_of_form server source requestId state asks.1 (formOf?_eq_some_iff.2 asks.2)]
  simp only [filteredResponses, parsed]
  revert fetched
  obtain ⟨result, after⟩ := source.fetch formId wanted.query state
  rintro (rfl : result = .error failure)
  exact ⟨rfl, rfl⟩

theorem handle_of_applied {page : Page} (asks : request.AsksFor formId)
    (parsed : FilterRequest.parse formId (Form.decode (request.target.query.getD []))
      (FilterRequest.authorization request) server.limit = .ok wanted)
    (fetched : (source.fetch formId wanted.query state).1 = .ok page) :
    let handled := server.handle source requestId request state
    let filtered := wanted.filters.apply page wanted.limit
    handled.log = [appliedLine requestId formId wanted.filters.length page filtered] ∧
      handled.answer.status = 200 ∧
      (request.method = .get → handled.answer.body = filtered.print) := by
  rw [handle_of_form server source requestId state asks.1 (formOf?_eq_some_iff.2 asks.2)]
  simp only [filteredResponses, parsed]
  revert fetched
  obtain ⟨result, after⟩ := source.fetch formId wanted.query state
  rintro (rfl : result = .ok page)
  exact ⟨rfl, rfl, body_reply_of_get _ _⟩

/-- A failure is answered like a success only if it is a refusal by the provider with the status of
a success, and what the provider says can be sent. -/
theorem status_failure_eq_200_iff {failure : Failure} :
    (Denial.ofFailure failure).content.status = 200 ↔
      ∃ body contentType, failure = .status 200 body contentType ∧
        isHeaderValue (Text.bytes (contentType.getD "application/json")) = true := by
  cases failure with
  | status code body contentType =>
      have passedOn : (Denial.passedOn code body contentType).status = 200 ↔ code = 200 := by
        rw [Denial.status]
        split
        · rfl
        · next improper =>
            refine iff_of_false (by decide) ?_
            rintro rfl
            exact improper (by decide)
      rw [Denial.ofFailure, Denial.content]
      split
      · next sendable => simp [passedOn, sendable]
      · next unsendable => simp [Content.plain, unsendable]
  | incomplete detail => simp [Denial.ofFailure, Denial.content, Content.json, Denial.status]
  | unreadable detail => simp [Denial.ofFailure, Denial.content, Content.json, Denial.status]
  | misconfigured detail => simp [Denial.ofFailure, Denial.content, Content.json, Denial.status]

end Logged

/-- A request that does not reach the route writes nothing. One that does writes exactly one line,
with the form that it asks for. The line is of a rejection, with its detail, if the request is
rejected and so answered with status 400. It is of a failed fetch, with the failure, if the fetch
fails; the answer then has the status 200 only if the provider's refusal has. It is of applied
filters if the fetch yields a page, and the answer then has the status 200. What the line counts is
the items of the first filters, the submissions of the page, and those of the page that is answered
with the counts of that page. -/
theorem log_tells_outcome {σ : Type} (server : Server) (source : Source σ) (requestId : String)
    (request : Request) (state : σ) :
    let handled := server.handle source requestId request state
    ((∀ formId, ¬request.AsksFor formId) →
      handled.log = [] ∧ ∀ stream, written stream handled.log = "") ∧
    ∀ formId, request.AsksFor formId →
      let params := Form.decode (request.target.query.getD [])
      let parsed :=
        FilterRequest.parse formId params (FilterRequest.authorization request) server.limit
      let fetched (wanted : FilterRequest) := (source.fetch formId wanted.query state).1
      ∃ line, handled.log = [line] ∧
        (∀ stream, written stream handled.log =
          if line.severity.stream = stream then line.render else "") ∧
        (line.event = "FILTERS_REJECTED" ↔
          (∃ rejection, parsed = .error rejection) ∧ handled.answer.status = 400) ∧
        (∀ rejection, parsed = .error rejection →
          line = rejectedLine requestId formId rejection ∧ line.severity.stream = .output ∧
            handled.answer.status = 400) ∧
        (line.event = "UPSTREAM_FAILED" ↔
          ∃ wanted failure, parsed = .ok wanted ∧ fetched wanted = .error failure) ∧
        (∀ wanted failure, parsed = .ok wanted → fetched wanted = .error failure →
          line = failedLine requestId formId failure ∧ line.severity.stream = .diagnostics ∧
            (handled.answer.status = 200 ↔ ∃ body contentType,
              failure = .status 200 body contentType ∧
                isHeaderValue (Text.bytes (contentType.getD "application/json")) = true)) ∧
        (line.event = "FILTERS_APPLIED" ↔
          ∃ wanted page, parsed = .ok wanted ∧ fetched wanted = .ok page) ∧
        ∀ wanted page, parsed = .ok wanted → fetched wanted = .ok page →
          let filtered := wanted.filters.apply page wanted.limit
          (∃ text items,
            (FilterRequest.occurrences FilterRequest.filtersParam params).head? = some text ∧
            decode Decoder.value (Text.bytes text) = .ok (.array items) ∧
            line = appliedLine requestId formId items.length page filtered) ∧
          line.severity.stream = .output ∧ handled.answer.status = 200 ∧
          (request.method = .get → handled.answer.body = filtered.print) := by
  intro handled
  refine ⟨fun unasked => ?_, ?_⟩
  · have log : handled.log = [] := log_handle_of_not_asked server source requestId state unasked
    exact ⟨log, fun stream => by rw [log]; rfl⟩
  intro formId asks params parsed fetched
  cases judged : parsed with
  | error rejection =>
      obtain ⟨log, status⟩ : handled.log = [rejectedLine requestId formId rejection] ∧
        handled.answer.status = 400 := handle_of_rejected asks judged
      refine ⟨_, log, fun stream => by rw [log, written_single], ?_, ?_, ?_⟩
      · exact iff_of_true rfl ⟨⟨_, rfl⟩, status⟩
      · rintro _ ⟨⟩
        exact ⟨rfl, rfl, status⟩
      · simp [rejectedLine]
  | ok wanted =>
      cases result : fetched wanted with
      | error failure =>
          obtain ⟨log, status⟩ : handled.log = [failedLine requestId formId failure] ∧
            handled.answer.status = (Denial.ofFailure failure).content.status :=
              handle_of_failed asks judged result
          refine ⟨_, log, fun stream => by rw [log, written_single], ?_, ?_, ?_, ?_, ?_, ?_⟩
          · simp [failedLine]
          · simp
          · exact iff_of_true rfl ⟨wanted, failure, rfl, result⟩
          · rintro _ other ⟨⟩ same
            obtain rfl := Except.error.inj (result.symm.trans same)
            exact ⟨rfl, rfl, status ▸ status_failure_eq_200_iff⟩
          · refine iff_of_false (by simp [failedLine]) ?_
            rintro ⟨_, page, ⟨⟩, same⟩
            exact nomatch result.symm.trans same
          · rintro _ page ⟨⟩ same
            exact nomatch result.symm.trans same
      | ok page =>
          obtain ⟨log, status, body⟩ := handle_of_applied asks judged result
          obtain ⟨text, items, first, read, many⟩ := FilterRequest.items_of_parse judged
          have log : handled.log = _ := log
          refine ⟨_, log, fun stream => by rw [log, written_single], ?_, ?_, ?_, ?_, ?_, ?_⟩
          · simp [appliedLine]
          · simp
          · refine iff_of_false (by simp [appliedLine]) ?_
            rintro ⟨_, failure, ⟨⟩, same⟩
            exact nomatch result.symm.trans same
          · rintro _ failure ⟨⟩ same
            exact nomatch result.symm.trans same
          · exact iff_of_true rfl ⟨wanted, page, rfl, result⟩
          · rintro _ other ⟨⟩ same
            obtain rfl := Except.ok.inj (result.symm.trans same)
            exact ⟨⟨text, items, first, read, by rw [many]⟩, rfl, status, body⟩

/-- One request for each of the four cases: for a form with a page, for one without, for no filters
at all, and with a method that does not reach the route. -/
theorem log_tells_outcome_of_each :
    let page : Page := { FilterSet.twoAges with totalResponses := 700 }
    let log (request : Request) (memory : Memory) :=
      (standard.handle Memory.source "r" request memory).log
    let unfiltered : Request := { requestForAll "" with target.query := none }
    log (requestForAll "") (Memory.empty.insert "f" page) =
        [⟨.info, "FILTERS_APPLIED", [("request_id", "r"), ("form_id", "f"), ("clauses", "0"),
          ("original", "2"), ("matched", "2"), ("total_responses", "700"), ("page_count", "5")]⟩] ∧
      log (requestForAll "") Memory.empty =
        [⟨.error, "UPSTREAM_FAILED", [("request_id", "r"), ("form_id", "f"),
          ("error", "Upstream returned status 404")]⟩] ∧
      log unfiltered Memory.empty =
        [⟨.warning, "FILTERS_REJECTED", [("request_id", "r"), ("form_id", "f"),
          ("reason", "Missing required inputs")]⟩] ∧
      log { requestForAll "" with method := .options } Memory.empty = [] := by
  intro page log unfiltered
  obtain ⟨method, form, parsed⟩ : standard.Accepts (requestForAll "") "f" (allWanted "") :=
    accepts_requestForAll (by decide) (by decide) (by decide)
  refine ⟨?_, ?_, ?_, ?_⟩
  · have found : (Memory.source.fetch "f" (allWanted "").query (Memory.empty.insert "f" page)).1 =
      .ok page := by simp [Memory.source, Memory.find?_insert]
    obtain ⟨line, logged, -, -, -, -, -, -, applied⟩ := (log_tells_outcome standard Memory.source
      "r" (requestForAll "") (Memory.empty.insert "f" page)).2 "f" ⟨method, form⟩
    obtain ⟨⟨text, items, first, read, rfl⟩, -⟩ := applied _ _ parsed found
    obtain rfl : "[]" = text := Option.some.inj first
    have empty : decode Decoder.value (Text.bytes "[]") = .ok (.array []) := rfl
    obtain rfl : [] = items := Value.array.inj (Except.ok.inj (empty.symm.trans read))
    exact logged.trans (by decide +kernel)
  · obtain ⟨line, logged, -, -, -, -, failed, -⟩ := (log_tells_outcome standard Memory.source "r"
      (requestForAll "") Memory.empty).2 "f" ⟨method, form⟩
    obtain ⟨rfl, -⟩ := failed _ _ parsed rfl
    exact logged.trans (by decide)
  · obtain ⟨line, logged, -, -, rejected, -⟩ := (log_tells_outcome standard Memory.source "r"
      unfiltered Memory.empty).2 "f" ⟨method, form⟩
    obtain ⟨rfl, -⟩ := rejected .missing rfl
    exact logged.trans (by decide)
  · refine ((log_tells_outcome standard Memory.source "r" _ Memory.empty).1 ?_).1
    rintro formId ⟨get | head, -⟩
    · cases get
    · cases head

/-- A failed fetch that is answered with status 200: the provider's refusal has that status. -/
theorem status_200_of_failed :
    let source := Memory.source.failingOnce
    let handled := standard.handle source "r" (requestForAll "")
      (Memory.empty, some (.status 200 "" none))
    (requestForAll "").AsksFor "f" ∧ handled.answer.status = 200 ∧
      ∀ line ∈ handled.log, line.event ≠ "FILTERS_APPLIED" := by
  intro source handled
  obtain ⟨method, form, parsed⟩ : standard.Accepts (requestForAll "") "f" (allWanted "") :=
    accepts_requestForAll (by decide) (by decide) (by decide)
  obtain ⟨log, status⟩ : handled.log = [failedLine "r" "f" (.status 200 "" none)] ∧
    handled.answer.status = _ := handle_of_failed ⟨method, form⟩ parsed rfl
  refine ⟨⟨method, form⟩, ?_, ?_⟩
  · rw [status, status_failure_eq_200_iff]
    exact ⟨"", none, rfl, by decide⟩
  · intro line member
    rw [log, List.mem_singleton] at member
    subst member
    simp [failedLine]

end Server

end FormSieve
