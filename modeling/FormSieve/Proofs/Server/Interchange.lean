import FormSieve.Proofs.Server.Forwarding
import FormSieve.Proofs.Submission.RoundTrip

/-!
# Pages in memory and pages of a provider

Whether a page is held in memory or handed out by a provider cannot be told from the answer or from
the log, as long as the request to the provider is not too long to be sent. The page must have been
read from some document, and all its numbers must be whole: others are written and read with
rounding.
-/

namespace FormSieve

open Http

/-- A page that is the same when it is written and read again. -/
structure Page.IsPortable (p : Page) : Prop where
  read : ∃ document, Json.decode decoder document = .ok p
  whole : p.Whole

theorem Page.IsPortable.decode_print {p : Page} (h : p.IsPortable) :
    Json.decode decoder (Text.bytes p.print) = .ok p := by
  obtain ⟨document, read⟩ := h.read
  exact (sound_of_decode read).decode_print h.whole _

namespace Outcome

/-- What a provider says that has the page, if there is one, and nothing else. -/
inductive Reports : Option Page → Outcome → Prop where
  | held (page : Page) (contentType : Option Bytes) :
    Reports (some page) (.reply 200 contentType (some (Text.bytes page.print)))
  | missing :
    Reports none (.reply 404 (some (Text.bytes "application/json"))
      (some (Text.bytes "\x7b\"message\":\"Form not found\"\x7d")))

/-- A provider's report comes to what is found in memory. -/
theorem Reports.conclude {found : Option Page} {outcome : Outcome} (h : Reports found outcome)
    (portable : ∀ page, found = some page → page.IsPortable) (reader : TextReader)
    (sent : Outgoing) :
    Remote.conclude reader sent outcome = found.elim (.error Memory.notFound) .ok := by
  cases h with
  | held page contentType =>
      rw [Remote.conclude, if_pos ⟨by decide, by decide⟩, Option.map_some,
        (portable page rfl).decode_print]
      rfl
  | missing =>
      have kind : plainText? (Text.bytes "application/json") = some "application/json" := by decide
      rw [Remote.conclude, if_neg (by decide), Remote.refusalText,
        reader.read_unmarked _ _ (by decide) (by decide), Text.lossy_bytes, Option.bind_some, kind]
      rfl

end Outcome

namespace Server

variable {σ : Type} {remote : Remote} {server : Server} {request : Request} {formId : String}
  {m : Memory} {send : Outgoing → σ → Outcome × σ} {reader : TextReader} {state : σ}

theorem fetch_eq_of_reports (portable : ∀ page, m.find? formId = some page → page.IsPortable)
    (reports : ∀ sent, (send sent state).1.Reports (m.find? formId)) {query : PageQuery}
    {sent : Outgoing} (made : remote.outgoing formId query = .ok sent) :
    ((remote.source send reader).fetch formId query state).1 =
      (Memory.source.fetch formId query m).1 := by
  simp only [Remote.source, made, Memory.source, (reports sent).conclude portable reader sent]
  cases m.find? formId <;> rfl

/-! ## A page without submissions -/

/-- A source that has an empty page for the form `f`. -/
def emptyHeld : Memory := Memory.empty.insert "f" ⟨[], 0, 0⟩

/-- A provider that hands out an empty page whatever it is asked. -/
def sendsEmpty : Outgoing → Unit → Outcome × Unit :=
  fun _ state => (.reply 200 none (some (Text.bytes (Page.print ⟨[], 0, 0⟩))), state)

theorem find?_emptyHeld : emptyHeld.find? "f" = some ⟨[], 0, 0⟩ := by
  rw [emptyHeld, Memory.find?_insert, if_pos rfl]

theorem emptyHeld_isPortable (page : Page) (found : emptyHeld.find? "f" = some page) :
    page.IsPortable := by
  rw [find?_emptyHeld] at found
  obtain rfl := Option.some.inj found
  exact ⟨⟨Text.bytes (Page.print ⟨[], 0, 0⟩), rfl⟩, fun s member => absurd member List.not_mem_nil⟩

theorem sendsEmpty_reports (sent : Outgoing) :
    (sendsEmpty sent ()).1.Reports (emptyHeld.find? "f") := by
  rw [find?_emptyHeld]
  exact .held _ none

theorem formOf?_requestForAll (value : String) :
    formOf? (requestForAll value).target.path = some "f" := by
  show formOf? (Text.bytes "/api/forms/f/filteredResponses") = some "f"
  decide

/-- A page that is held is found however long the request for it is. -/
theorem status_emptyHeld (n : Nat) :
    (standard.handle Memory.source "" (requestForAll (tildes n)) emptyHeld).answer.status =
      200 := by
  rw [answer_of_page (accepts_tildes n) find?_emptyHeld]
  rfl

theorem status_onHost_of_tildes {n : Nat} (long : 21845 ≤ n) :
    (standard.handle (Remote.onHost.source sendsEmpty reader) "" (requestForAll (tildes n))
      ()).answer.status = 500 := by
  obtain ⟨url, refused⟩ := exists_outgoing_tildes long
  rw [answer_remote (accepts_tildes n) Remote.onHost sendsEmpty reader "" (), Remote.outcome,
    refused]
  rfl

/-! ## What cannot be told apart -/

/-- A server that asks a provider answers and logs as one that has the provider's pages in memory,
unless the request to the provider cannot be made. Then the client is given nothing, and the answer
is that of a failure. Below a base address that can be requested itself, the request for a form with
a plain name can be made exactly if its URL is not too long. -/
theorem sources_interchangeable (form : formOf? request.target.path = some formId)
    (portable : ∀ page, m.find? formId = some page → page.IsPortable)
    (reports : ∀ sent, (send sent state).1.Reports (m.find? formId)) (requestId : String) :
    ((∀ wanted, server.Accepts request formId wanted →
        ∃ sent, remote.outgoing formId wanted.query = .ok sent) →
      (server.handle (remote.source send reader) requestId request state).visible =
        (server.handle Memory.source requestId request m).visible) ∧
    (∀ wanted failure, server.Accepts request formId wanted →
      remote.outgoing formId wanted.query = .error failure →
        (server.handle (remote.source send reader) requestId request state).answer =
            server.reply request (Route.ofPath? request.target.path) failedContent ∧
          (server.handle (remote.source send reader) requestId request state).state = state) ∧
    ∀ root, remote.HasRequestableRoot root → IsPlainName formId → ∀ query,
      (∃ sent, remote.outgoing formId query = .ok sent) ↔ remote.IsShort formId query := by
  refine ⟨fun makes => ?_, fun wanted failure accepts refused => ?_, fun root h plain query => ?_⟩
  · refine handle_congr fun other wanted accepts => ?_
    have same : some other = some formId := (formOf?_eq_some_iff.2 accepts.2.1).symm.trans form
    obtain rfl := Option.some.inj same
    obtain ⟨sent, made⟩ := makes wanted accepts
    exact fetch_eq_of_reports portable reports made
  · rw [answer_remote accepts remote send reader requestId state, Remote.outcome, refused,
      (handle_of_accepts server (remote.source send reader) requestId state accepts).1]
    simp only [Remote.source, refused]
    exact ⟨rfl, trivial⟩
  · exact Remote.exists_outgoing_iff_isShort h (plain.literal _)

theorem sources_interchangeable_of_empty :
    Remote.onHost.HasRequestableRoot Remote.onHostRoot ∧
      formOf? (requestForAll "1").target.path = some "f" ∧ IsPlainName "f" ∧
      (∀ page, emptyHeld.find? "f" = some page → page.IsPortable) ∧
      (∀ sent, (sendsEmpty sent ()).1.Reports (emptyHeld.find? "f")) ∧
      (∀ wanted, standard.Accepts (requestForAll "1") "f" wanted →
        ∃ sent, Remote.onHost.outgoing "f" wanted.query = .ok sent) ∧
      (standard.handle (Remote.onHost.source sendsEmpty .utf8) "" (requestForAll "1") ()).visible =
        (standard.handle Memory.source "" (requestForAll "1") emptyHeld).visible := by
  have accepts : standard.Accepts (requestForAll "1") "f" (allWanted "1") :=
    accepts_requestForAll (by decide) (by decide) (by decide)
  have makes (wanted : FilterRequest) (h : standard.Accepts (requestForAll "1") "f" wanted) :
      ∃ sent, Remote.onHost.outgoing "f" wanted.query = .ok sent := by
    rw [h.wanted_eq accepts]
    exact (Remote.exists_outgoing_iff_isShort Remote.onHost_hasRequestableRoot
      (isPlainName_f.literal _)).2 (by decide +kernel)
  exact ⟨Remote.onHost_hasRequestableRoot, formOf?_requestForAll "1", isPlainName_f,
    emptyHeld_isPortable, sendsEmpty_reports, makes,
    (sources_interchangeable (formOf?_requestForAll "1") emptyHeld_isPortable sendsEmpty_reports
      "").1 makes⟩

/-- A request that is too long to be passed on tells a provider from pages in memory. -/
theorem sources_interchangeable_of_tildes :
    Request.ofTexts? "GET" ("/api/forms/f/filteredResponses?filters=%5B%5D&a=" ++ tildes 22000) [] =
        some (requestForAll (tildes 22000)) ∧
      Remote.onHost.HasRequestableRoot Remote.onHostRoot ∧
      formOf? (requestForAll (tildes 22000)).target.path = some "f" ∧ IsPlainName "f" ∧
      (∀ page, emptyHeld.find? "f" = some page → page.IsPortable) ∧
      (∀ sent, (sendsEmpty sent ()).1.Reports (emptyHeld.find? "f")) ∧
      (standard.handle (Remote.onHost.source sendsEmpty .utf8) "" (requestForAll (tildes 22000))
        ()).answer.status = 500 ∧
      (standard.handle Memory.source "" (requestForAll (tildes 22000))
        emptyHeld).answer.status = 200 :=
  ⟨ofTexts?_tildes (by decide), Remote.onHost_hasRequestableRoot, formOf?_requestForAll _,
    isPlainName_f, emptyHeld_isPortable, sendsEmpty_reports, status_onHost_of_tildes (by decide),
    status_emptyHeld _⟩

end Server

end FormSieve
