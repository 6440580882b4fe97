import FormSieve.Proofs.Filter.Composition
import FormSieve.Proofs.Http.Header
import FormSieve.Proofs.Server.History
import FormSieve.Proofs.Text.Form

/-!
# What a provider's reply is answered with

A request to a provider comes to one of three things: a page, a refusal or a failure. Only what
the filters leave of a page is delivered as success, a refusal is passed on with its own status
and words, and a failure is answered by one document that says nothing about it.
-/

namespace FormSieve

open Http

/-! ## Outcomes -/

namespace Outcome

/-- The provider hands out a page. -/
def Yields (outcome : Outcome) (page : Page) : Prop :=
  ∃ status contentType document, outcome = .reply status contentType (some document) ∧
    (200 ≤ status ∧ status < 300) ∧ Json.decode Page.decoder document = .ok page

/-- The provider says that it does not hand out a page. What it says besides may break off. -/
def Refuses (outcome : Outcome) (status : UInt16) (contentType body : Option Bytes) : Prop :=
  outcome = .reply status contentType body ∧ ¬(200 ≤ status ∧ status < 300)

/-- There is no reply, or one that is meant to have a page and has none. -/
inductive Fails : Outcome → Prop where
  | lost : Fails .lost
  | stopped (reason : String) : Fails (.stopped reason)
  | broken {status : UInt16} (contentType : Option Bytes) (success : 200 ≤ status ∧ status < 300) :
    Fails (.reply status contentType none)
  | unreadable {status : UInt16} (contentType : Option Bytes) {document : Bytes}
    {refusal : Json.Refusal} (success : 200 ≤ status ∧ status < 300)
    (read : Json.decode Page.decoder document = .error refusal) :
    Fails (.reply status contentType (some document))

theorem yields_or_refuses_or_fails (outcome : Outcome) :
    (∃ page, outcome.Yields page) ∨
      (∃ status contentType body, outcome.Refuses status contentType body) ∨ outcome.Fails := by
  cases outcome with
  | lost => exact .inr (.inr .lost)
  | stopped reason => exact .inr (.inr (.stopped reason))
  | reply status contentType body =>
      by_cases success : 200 ≤ status ∧ status < 300
      · cases body with
        | none => exact .inr (.inr (.broken contentType success))
        | some document =>
            cases read : Json.decode Page.decoder document with
            | ok page => exact .inl ⟨page, status, contentType, document, rfl, success, read⟩
            | error refusal => exact .inr (.inr (.unreadable contentType success read))
      · exact .inr (.inl ⟨status, contentType, body, rfl, success⟩)

end Outcome

/-- What is answered where nothing may be said. -/
def failedContent : Content := .json 500 "\x7b\"message\":\"Error fetching data\"\x7d"

@[simp] theorem content_fetchFailed (reason : String) :
    (Denial.fetchFailed reason).content = failedContent := by
  have document : Json.printRecord [("message", Json.printText "Error fetching data")] =
      "\x7b\"message\":\"Error fetching data\"\x7d" := by decide
  exact congrArg (Content.json 500) document

/-- What an outcome is answered with. -/
def answerTo (reader : TextReader) (wanted : FilterRequest) : Outcome → Content
  | .lost | .stopped _ => failedContent
  | .reply status contentType body =>
    if 200 ≤ status ∧ status < 300 then
      match body.map (Json.decode Page.decoder) with
      | some (.ok page) => .json 200 (wanted.filters.apply page wanted.limit).print
      | some (.error _) | none => failedContent
    else
      (Denial.passedOn status (Remote.refusalText reader contentType body)
        (contentType.bind plainText?)).content

section Answers

variable {reader : TextReader} {wanted : FilterRequest} {outcome : Outcome}

theorem answerTo_of_yields {page : Page} (h : outcome.Yields page) :
    answerTo reader wanted outcome =
      .json 200 (wanted.filters.apply page wanted.limit).print := by
  obtain ⟨status, contentType, document, rfl, success, read⟩ := h
  rw [answerTo, if_pos success, Option.map_some, read]

theorem answerTo_of_fails (h : outcome.Fails) :
    answerTo reader wanted outcome = failedContent := by
  cases h with
  | lost => rfl
  | stopped reason => rfl
  | broken contentType success => rw [answerTo, if_pos success, Option.map_none]
  | unreadable contentType success read => rw [answerTo, if_pos success, Option.map_some, read]

/-- The type of a refusal's text can be sent. -/
theorem isHeaderValue_contentType (contentType : Option Bytes) :
    isHeaderValue (Text.bytes ((contentType.bind plainText?).getD "application/json")) = true := by
  cases plain : contentType.bind plainText? with
  | none => decide
  | some text =>
      obtain ⟨value, -, same⟩ := Option.bind_eq_some_iff.1 plain
      exact isHeaderValue_of_plainText? same

theorem answerTo_of_refuses {status : UInt16} {contentType body : Option Bytes}
    (h : outcome.Refuses status contentType body) (proper : 100 ≤ status ∧ status ≤ 999) :
    answerTo reader wanted outcome =
      ⟨status, some ((contentType.bind plainText?).getD "application/json"),
        Remote.refusalText reader contentType body⟩ := by
  obtain ⟨rfl, refused⟩ := h
  rw [answerTo, if_neg refused, Denial.content, if_pos (isHeaderValue_contentType contentType),
    Denial.status, if_pos proper]

end Answers

namespace Remote

variable {σ : Type}

/-- What the request for a page comes to. A request that cannot be made is not completed. -/
def outcome (remote : Remote) (send : Outgoing → σ → Outcome × σ) (formId : String)
    (query : PageQuery) (state : σ) : Outcome :=
  match remote.outgoing formId query with
  | .error _ => .lost
  | .ok sent => (send sent state).1

/-- No reply has a status that is none. -/
def HasProperStatuses (send : Outgoing → σ → Outcome × σ) : Prop :=
  ∀ sent state status contentType body,
    (send sent state).1 = .reply status contentType body → 100 ≤ status ∧ status ≤ 999

variable {remote : Remote} {send : Outgoing → σ → Outcome × σ} {reader : TextReader}
  {formId : String} {query : PageQuery} {state : σ}

theorem outgoing_eq_error {failure : Failure} (h : remote.outgoing formId query = .error failure) :
    ∃ detail, failure = .incomplete detail := by
  rw [outgoing] at h
  split at h
  · exact ⟨_, (Except.error.inj h).symm⟩
  · next url read =>
      simp only at h
      split at h
      · exact ⟨_, (Except.error.inj h).symm⟩
      · split at h
        · exact nomatch h
        · exact ⟨_, (Except.error.inj h).symm⟩

/-- A fetch concludes from what the request came to, unless there was none. -/
theorem fetch_eq_conclude_or_error :
    (∃ sent, ((remote.source send reader).fetch formId query state).1 =
        conclude reader sent (remote.outcome send formId query state)) ∨
      remote.outcome send formId query state = .lost ∧
        ∃ detail, ((remote.source send reader).fetch formId query state).1 =
          .error (.incomplete detail) := by
  cases made : remote.outgoing formId query with
  | ok sent => exact .inl ⟨sent, by simp only [source, outcome, made]⟩
  | error failure =>
      obtain ⟨detail, rfl⟩ := outgoing_eq_error made
      exact .inr ⟨by simp only [outcome, made], detail, by simp only [source, made]⟩

theorem contentOf_conclude (wanted : FilterRequest) (sent : Outgoing) (outcome : Outcome) :
    Server.contentOf wanted (conclude reader sent outcome) = answerTo reader wanted outcome := by
  cases outcome with
  | lost => exact content_fetchFailed _
  | stopped reason => exact content_fetchFailed _
  | reply status contentType body =>
      rw [conclude, answerTo]
      split
      · cases body.map (Json.decode Page.decoder) with
        | none => exact content_fetchFailed _
        | some read =>
            cases read with
            | ok page => rfl
            | error refusal => exact content_fetchFailed _
      · rfl

/-- The answer depends on the provider only through the outcome. -/
theorem contentOf_fetch (wanted : FilterRequest) :
    Server.contentOf wanted ((remote.source send reader).fetch formId query state).1 =
      answerTo reader wanted (remote.outcome send formId query state) := by
  rcases fetch_eq_conclude_or_error with ⟨sent, concluded⟩ | ⟨lost, detail, failed⟩
  · rw [concluded, contentOf_conclude]
  · rw [failed, lost]
    exact content_fetchFailed _

theorem proper_of_outcome (proper : HasProperStatuses send) {status : UInt16}
    {contentType body : Option Bytes}
    (h : remote.outcome send formId query state = .reply status contentType body) :
    100 ≤ status ∧ status ≤ 999 := by
  rw [outcome] at h
  split at h
  · exact nomatch h
  · exact proper _ _ _ _ _ h

/-- A refusal that a fetch ends in is one of the provider. -/
theorem refuses_of_fetch {code : UInt16} {text : String} {kind : Option String}
    (h : ((remote.source send reader).fetch formId query state).1 =
      .error (.status code text kind)) :
    ∃ contentType body, (remote.outcome send formId query state).Refuses code contentType body ∧
      text = refusalText reader contentType body ∧ kind = contentType.bind plainText? := by
  rcases fetch_eq_conclude_or_error with ⟨sent, concluded⟩ | ⟨-, detail, failed⟩
  · rw [concluded, conclude.eq_def] at h
    split at h
    · exact nomatch h
    · exact nomatch h
    · next status contentType body came =>
        split at h
        · split at h <;> exact nomatch h
        · next refused =>
            injection h with same
            injection same with code text kind
            subst code
            exact ⟨contentType, body, ⟨came, refused⟩, text.symm, kind.symm⟩
  · exact nomatch failed.symm.trans h

/-- A provider on the host `h`. -/
def onHost : Remote := ⟨"http://h", false, by decide⟩

end Remote

namespace Server

variable {server : Server} {request : Request}

/-- An answer says of what type it is, unless it is empty. -/
theorem contentType_reply (route : Option Route) (content : Content) :
    (server.reply request route content).headers.filter (·.1 = "content-type") =
      content.contentType.toList.map fun contentType => ("content-type", contentType) := by
  have origin : ((server.origins.allowed request).toList.map fun o =>
      ("access-control-allow-origin", o)).filter (·.1 = "content-type") = [] := by
    simp
  have kind : (content.contentType.toList.map fun t => ("content-type", t)).filter
      (·.1 = "content-type") = content.contentType.toList.map fun t => ("content-type", t) := by
    simp
  unfold reply
  simp only [List.filter_append, List.filter_cons, origin, kind]
  cases route with
  | none => cases request.method <;> simp
  | some route => cases request.method <;> simp

/-! ## A request for all submissions -/

/-- A server with the usual settings. -/
def standard : Server := ⟨{}, .standard, .any⟩

/-- A request for all submissions of the form `f`, with a parameter for the provider. -/
def requestForAll (value : String) : Request where
  method := .get
  target := ⟨Text.bytes "/api/forms/f/filteredResponses",
    some (Text.bytes "filters=%5B%5D" ++ Ascii.ampersand ::
      (Text.bytes "a" ++ Ascii.equalSign :: Text.bytes value))⟩
  headers := []

/-- What it asks for. -/
def allWanted (value : String) : FilterRequest := ⟨[], .standard, ⟨[("a", value)], none⟩⟩

theorem accepts_requestForAll {value : String} (unjoined : Ascii.ampersand ∉ Text.bytes value)
    (plain : Ascii.plus ∉ Text.bytes value) (unescaped : Ascii.percent ∉ Text.bytes value) :
    standard.Accepts (requestForAll value) "f" (allWanted value) := by
  have params : Form.decode ((requestForAll value).target.query.getD []) =
      [("filters", "[]"), ("a", value)] := by
    have first : Form.decode (Text.bytes "filters=%5B%5D") = [("filters", "[]")] := by decide
    have name : Form.decodePart (Text.bytes "a") = "a" := by decide
    have one : Ascii.ampersand ∉ Text.bytes "a" ++ Ascii.equalSign :: Text.bytes value := by
      have name : Ascii.ampersand ∉ Text.bytes "a" := by decide
      have mark : Ascii.ampersand ≠ Ascii.equalSign := by decide
      simp [unjoined, name, mark]
    show Form.decode (Text.bytes "filters=%5B%5D" ++ Ascii.ampersand ::
      (Text.bytes "a" ++ Ascii.equalSign :: Text.bytes value)) = _
    rw [Form.decode_append (by decide), first, Form.decode_pair one (by decide), name,
      Form.decodePart_bytes plain unescaped]
    rfl
  have path : Text.bytes "/api/forms/f/filteredResponses" =
      Route.formsPath ++ Text.bytes "f" ++ Route.actionPath := by decide
  refine ⟨.inl rfl, ⟨Text.bytes "f", by decide, path, by decide⟩, ?_⟩
  rw [params]
  rfl

/-! ## How outcomes are answered -/

section Outcomes

variable {σ : Type} {formId : String} {wanted : FilterRequest}
  (accepts : server.Accepts request formId wanted) (remote : Remote)
  (send : Outgoing → σ → Outcome × σ) (reader : TextReader) (requestId : String) (state : σ)
include accepts

/-- An acceptable request is answered with what its outcome is answered with. -/
theorem answer_remote :
    (server.handle (remote.source send reader) requestId request state).answer =
      server.reply request (Route.ofPath? request.target.path)
        (answerTo reader wanted (remote.outcome send formId wanted.query state)) := by
  rw [(handle_of_accepts server (remote.source send reader) requestId state accepts).2,
    Remote.contentOf_fetch]

theorem answer_of_yields (get : request.method = .get) {page : Page}
    (h : (remote.outcome send formId wanted.query state).Yields page) :
    let answer := (server.handle (remote.source send reader) requestId request state).answer
    answer.status = 200 ∧ answer.body = (wanted.filters.apply page wanted.limit).print := by
  intro answer
  have answered : answer = _ := answer_remote accepts remote send reader requestId state
  rw [answered, answerTo_of_yields h]
  exact ⟨rfl, body_reply_of_get _ _ get⟩

theorem answer_of_fails (h : (remote.outcome send formId wanted.query state).Fails) :
    (server.handle (remote.source send reader) requestId request state).answer =
      server.reply request (Route.ofPath? request.target.path) failedContent := by
  rw [answer_remote accepts remote send reader requestId state, answerTo_of_fails h]

/-- A refusal is passed on with its status, its text and its type. -/
theorem answer_of_refuses (get : request.method = .get) (proper : Remote.HasProperStatuses send)
    {status : UInt16} {contentType body : Option Bytes}
    (h : (remote.outcome send formId wanted.query state).Refuses status contentType body) :
    let answer := (server.handle (remote.source send reader) requestId request state).answer
    answer.status = status ∧ answer.body = Remote.refusalText reader contentType body ∧
      answer.headers.filter (·.1 = "content-type") =
        [("content-type", (contentType.bind plainText?).getD "application/json")] := by
  intro answer
  have answered : answer = _ := answer_remote accepts remote send reader requestId state
  rw [answered, answerTo_of_refuses h (Remote.proper_of_outcome proper h.1)]
  exact ⟨rfl, body_reply_of_get _ _ get, contentType_reply _ _⟩

/-- No refusal and no failure is answered as success. -/
theorem status_eq_200_iff (get : request.method = .get) (proper : Remote.HasProperStatuses send) :
    (server.handle (remote.source send reader) requestId request state).answer.status = 200 ↔
      ∃ page, (remote.outcome send formId wanted.query state).Yields page := by
  constructor
  · intro success
    rcases (remote.outcome send formId wanted.query state).yields_or_refuses_or_fails with
      found | ⟨status, contentType, body, h⟩ | h
    · exact found
    · rw [(answer_of_refuses accepts remote send reader requestId state get proper h).1] at success
      subst success
      exact absurd ⟨by decide, by decide⟩ h.2
    · rw [answer_of_fails accepts remote send reader requestId state h, status_reply] at success
      exact absurd success (by decide)
  · rintro ⟨page, h⟩
    exact (answer_of_yields accepts remote send reader requestId state get h).1

/-- Only what the filters leave of a page is delivered as success. A refusal is passed on, and its
status and its type can always be sent. Its text is what the client reads in its body: in UTF-8,
unless a mark or its type says otherwise. All failures are answered alike, whatever they are and
whoever they are failures of. -/
theorem answer_of_outcome (get : request.method = .get) (proper : Remote.HasProperStatuses send) :
    let outcome := remote.outcome send formId wanted.query state
    let answer := (server.handle (remote.source send reader) requestId request state).answer
    ((answer.status = 200 ↔ ∃ page, outcome.Yields page) ∧
      ∀ page, outcome.Yields page →
        answer.body = (wanted.filters.apply page wanted.limit).print ∧
          ∀ s ∈ (wanted.filters.apply page wanted.limit).responses, wanted.filters.MetBy s) ∧
    ((∀ status contentType body, outcome.Refuses status contentType body →
        answer.status = status ∧
          answer.headers.filter (·.1 = "content-type") =
            [("content-type", (contentType.bind plainText?).getD "application/json")] ∧
          (body = none → answer.body = "Failed to read error response") ∧
          ∀ document, body = some document →
            answer.body = reader.read contentType document ∧
            (Text.isMarked document = false → leavesUtf8 contentType = true →
              answer.body = Text.lossy document) ∧
            ∀ rest, document = Text.utf8Mark ++ rest → answer.body = Text.lossy rest) ∧
      ∀ code text kind, ((remote.source send reader).fetch formId wanted.query state).1 =
          .error (.status code text kind) →
        (100 ≤ code ∧ code ≤ 999) ∧
          isHeaderValue (Text.bytes (kind.getD "application/json")) = true) ∧
    (outcome.Fails →
      answer.status = 500 ∧ answer.body = "\x7b\"message\":\"Error fetching data\"\x7d" ∧
        ∀ (τ : Type) (other : Remote) (send' : Outgoing → τ → Outcome × τ) (reader' : TextReader)
          (requestId' : String) (state' : τ),
          (other.outcome send' formId wanted.query state').Fails →
          (server.handle (other.source send' reader') requestId' request state').answer =
            answer) := by
  intro outcome answer
  refine ⟨⟨?_, ?_⟩, ⟨?_, ?_⟩, ?_⟩
  · exact status_eq_200_iff accepts remote send reader requestId state get proper
  · intro page h
    refine ⟨(answer_of_yields accepts remote send reader requestId state get h).2, ?_⟩
    exact fun s member => (wanted.filters.admits_eq_true_iff s).1 (List.mem_filter.1 member).2
  · intro status contentType body h
    obtain ⟨same, text, kind⟩ :=
      answer_of_refuses accepts remote send reader requestId state get proper h
    refine ⟨same, kind, ?_, ?_⟩
    · rintro rfl
      exact text
    · rintro document rfl
      refine ⟨text, fun unmarked leaves => ?_, ?_⟩
      · exact text.trans (reader.read_unmarked contentType document unmarked leaves)
      · rintro rest rfl
        exact text.trans (reader.read_marked contentType rest)
  · intro code text kind failed
    obtain ⟨contentType, body, h, -, rfl⟩ := Remote.refuses_of_fetch failed
    exact ⟨Remote.proper_of_outcome proper h.1, isHeaderValue_contentType contentType⟩
  · intro h
    have failed : answer = _ := answer_of_fails accepts remote send reader requestId state h
    rw [failed]
    refine ⟨rfl, body_reply_of_get _ _ get, fun τ other send' reader' requestId' state' h' => ?_⟩
    exact answer_of_fails accepts other send' reader' requestId' state' h'

end Outcomes

/-- A provider that refuses every request alike. -/
def refusing (status : UInt16) (contentType : String) (body : Option Bytes) :
    Outgoing → Unit → Outcome × Unit :=
  fun _ state => (.reply status (some (Text.bytes contentType)) body, state)

theorem refusing_hasProperStatuses {status : UInt16} (proper : 100 ≤ status ∧ status ≤ 999)
    (contentType : String) (body : Option Bytes) :
    Remote.HasProperStatuses (refusing status contentType body) := by
  rintro sent state status' contentType' body' ⟨rfl, rfl, rfl⟩
  exact proper

/-- A provider that is out of service says so itself. -/
theorem answer_of_outcome_refused :
    let remote := Remote.onHost
    let send := refusing 503 "text/plain" (some (Text.bytes "later"))
    let answer := (standard.handle (remote.source send .utf8) "" (requestForAll "") ()).answer
    standard.Accepts (requestForAll "") "f" (allWanted "") ∧
      (requestForAll "").method = .get ∧ Remote.HasProperStatuses send ∧
      answer.status = 503 ∧ answer.body = "later" ∧
      answer.headers.filter (·.1 = "content-type") = [("content-type", "text/plain")] := by
  intro remote send answer
  have accepts : standard.Accepts (requestForAll "") "f" (allWanted "") :=
    accepts_requestForAll (by decide) (by decide) (by decide)
  have proper : Remote.HasProperStatuses send :=
    refusing_hasProperStatuses ⟨by decide, by decide⟩ _ _
  have refuses : (remote.outcome send "f" (allWanted "").query ()).Refuses 503
      (some (Text.bytes "text/plain")) (some (Text.bytes "later")) :=
    ⟨by decide +kernel, by decide⟩
  obtain ⟨-, ⟨refused, -⟩, -⟩ := answer_of_outcome accepts remote send .utf8 "" () rfl proper
  obtain ⟨status, kind, -, text⟩ := refused _ _ _ refuses
  have words : answer.body = Text.lossy (Text.bytes "later") :=
    (text _ rfl).2.1 (by decide) (by decide)
  exact ⟨accepts, rfl, proper, status, words.trans (Text.lossy_bytes _), kind⟩

/-- A client that knows Latin-1, by one of its names. -/
def latinReader : TextReader where
  read contentType body :=
    if contentType = some (Text.bytes "text/plain; charset=iso-8859-1") ∧
        Text.isMarked body = false then
      String.ofList (body.map fun b => Char.ofNat b.toNat)
    else TextReader.utf8.read contentType body
  read_marked contentType body := by
    rw [if_neg fun h => absurd h.2 (by simp)]
    exact TextReader.utf8.read_marked contentType body
  read_unmarked contentType body unmarked leaves := by
    rw [if_neg]
    · exact TextReader.utf8.read_unmarked contentType body unmarked leaves
    · rintro ⟨rfl, -⟩
      exact absurd leaves (by decide)

/-- A refusal is not read as UTF-8 if its type says otherwise, and a mark is no part of its text. -/
theorem answer_of_outcome_in_encoding :
    let remote := Remote.onHost
    let latin := refusing 404 "text/plain; charset=iso-8859-1" (some [0xE9])
    let marked := refusing 404 "text/plain" (some [0xEF, 0xBB, 0xBF, 0x41])
    let answer (send : Outgoing → Unit → Outcome × Unit) :=
      (standard.handle (remote.source send latinReader) "" (requestForAll "") ()).answer
    standard.Accepts (requestForAll "") "f" (allWanted "") ∧
      (requestForAll "").method = .get ∧
      Remote.HasProperStatuses latin ∧ Remote.HasProperStatuses marked ∧
      ((answer latin).body = "é" ∧ (answer latin).body ≠ Text.lossy [0xE9]) ∧
      (answer marked).body = "A" ∧ (answer marked).body ≠ Text.lossy [0xEF, 0xBB, 0xBF, 0x41] := by
  intro remote latin marked answer
  have accepts : standard.Accepts (requestForAll "") "f" (allWanted "") :=
    accepts_requestForAll (by decide) (by decide) (by decide)
  have proper (contentType : String) (body : Option Bytes) :
      Remote.HasProperStatuses (refusing 404 contentType body) :=
    refusing_hasProperStatuses ⟨by decide, by decide⟩ contentType body
  have refusesLatin : (remote.outcome latin "f" (allWanted "").query ()).Refuses 404
      (some (Text.bytes "text/plain; charset=iso-8859-1")) (some [0xE9]) :=
    ⟨by decide +kernel, by decide⟩
  have refusesMarked : (remote.outcome marked "f" (allWanted "").query ()).Refuses 404
      (some (Text.bytes "text/plain")) (some [0xEF, 0xBB, 0xBF, 0x41]) :=
    ⟨by decide +kernel, by decide⟩
  have bodyLatin : (answer latin).body = "é" :=
    (answer_of_refuses accepts remote latin latinReader "" () rfl (proper _ _)
      refusesLatin).2.1
  have bodyMarked : (answer marked).body = "A" :=
    (answer_of_refuses accepts remote marked latinReader "" () rfl (proper _ _)
      refusesMarked).2.1
  exact ⟨accepts, rfl, proper _ _, proper _ _, ⟨bodyLatin, bodyLatin ▸ by decide⟩, bodyMarked,
    bodyMarked ▸ by decide⟩

end Server

end FormSieve
