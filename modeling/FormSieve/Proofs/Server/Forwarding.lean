import FormSieve.Proofs.Provider.Request
import FormSieve.Proofs.Server.Delivery
import FormSieve.Proofs.Server.FilterRequest

/-!
# What is passed on to a provider

For an acceptable request the client is given one request to the provider, whose query has the
parameters of the first but for the filters: in the same order, with repetitions, and letter by
letter. Its URL may be longer than the first, since more is escaped in it. If it is too long for a
request, the client is given nothing, and the answer is that of a failure.

Nothing is said here about requests that the client makes of its own, as where it is redirected.
-/

namespace FormSieve

open Http

/-! ## Recording -/

namespace Remote

variable {σ : Type}

/-- The client, with a record of the requests that it is given. -/
def recording (send : Outgoing → σ → Outcome × σ) :
    Outgoing → σ × List Outgoing → Outcome × (σ × List Outgoing) :=
  fun sent state => ((send sent state.1).1, ((send sent state.1).2, state.2 ++ [sent]))

theorem fetch_recording (remote : Remote) (send : Outgoing → σ → Outcome × σ)
    (reader : TextReader) (formId : String) (query : PageQuery) (state : σ)
    (seen : List Outgoing) :
    ((remote.source (recording send) reader).fetch formId query (state, seen)).1 =
      ((remote.source send reader).fetch formId query state).1 := by
  simp only [source]
  split <;> rfl

/-! ## A provider for examples -/

/-- The URL of the base address of the provider on `h`. -/
def onHostRoot : Url := ⟨"http".toList, some (.name ['h']), none, .segments [[]], none, none⟩

theorem onHost_hasRequestableRoot : onHost.HasRequestableRoot onHostRoot where
  read := by decide +kernel
  isOpen := ⟨by decide, rfl, rfl⟩
  requestable := by decide +kernel

end Remote

namespace Server

section Recording

variable {σ : Type} (server : Server) (remote : Remote) (send : Outgoing → σ → Outcome × σ)
  (reader : TextReader) (requestId : String) (request : Request) (state : σ)

/-- The requests that the client is given where a request is handled. -/
def forwards : List Outgoing :=
  (server.handle (remote.source (Remote.recording send) reader) requestId request
    (state, [])).state.2

/-- Recording is not seen in the answer or in the log. -/
theorem visible_recording :
    (server.handle (remote.source (Remote.recording send) reader) requestId request
        (state, [])).visible =
      (server.handle (remote.source send reader) requestId request state).visible :=
  handle_congr fun formId wanted _ =>
    Remote.fetch_recording remote send reader formId wanted.query state []

variable {request} {formId : String} {wanted : FilterRequest}

theorem forwards_of_accepts (h : server.Accepts request formId wanted) :
    server.forwards remote send reader requestId request state =
      match remote.outgoing formId wanted.query with
      | .ok sent => [sent]
      | .error _ => [] := by
  rw [forwards, (handle_of_accepts server (remote.source (Remote.recording send) reader) requestId
    (state, []) h).1]
  simp only [Remote.source]
  cases remote.outgoing formId wanted.query <;> rfl

end Recording

/-! ## Parameters that grow -/

/-- A request for all submissions is given as a text if its parameter may stand in a query and is
not too long. -/
theorem ofTexts?_requestForAll {value : String}
    (inQuery : ∀ b ∈ Text.bytes value, Target.isQueryByte b = true)
    (short : (Text.bytes value).length ≤ 65000) :
    Request.ofTexts? "GET" ("/api/forms/f/filteredResponses?filters=%5B%5D&a=" ++ value) [] =
      some (requestForAll value) := by
  have front : Text.bytes "/api/forms/f/filteredResponses?filters=%5B%5D&a=" =
      Text.bytes "/api/forms/f/filteredResponses" ++ Target.questionMark ::
        (Text.bytes "filters=%5B%5D" ++ Ascii.ampersand :: (Text.bytes "a" ++ [Ascii.equalSign])) :=
    by decide
  have text : Text.bytes ("/api/forms/f/filteredResponses?filters=%5B%5D&a=" ++ value) =
      Target.written (Text.bytes "/api/forms/f/filteredResponses")
        (requestForAll value).target.query := by
    rw [Text.bytes_append, front]
    simp [requestForAll, Target.written]
  have brief : (Text.bytes ("/api/forms/f/filteredResponses?filters=%5B%5D&a=" ++ value)).length ≤
      Target.maxLength := by
    have length : (Text.bytes "/api/forms/f/filteredResponses?filters=%5B%5D&a=").length = 48 := by
      decide
    rw [Text.bytes_append, List.length_append, length, Target.maxLength]
    omega
  have fits : ∀ b ∈ (requestForAll value).target.query.getD [], Target.isQueryByte b = true := by
    have filters : ∀ b ∈ Text.bytes "filters=%5B%5D", Target.isQueryByte b = true :=
      List.all_eq_true.1 rfl
    have name : ∀ b ∈ Text.bytes "a", Target.isQueryByte b = true := List.all_eq_true.1 rfl
    have marks : Target.isQueryByte Ascii.ampersand = true ∧
        Target.isQueryByte Ascii.equalSign = true := by decide
    simpa [requestForAll, or_imp, forall_and, marks] using ⟨filters, name, inQuery⟩
  have target : Target.parse? ("/api/forms/f/filteredResponses?filters=%5B%5D&a=" ++ value) =
      some (requestForAll value).target := by
    rw [Target.parse?_of_path (text.trans rfl) (List.cons_ne_nil _ _) brief, text]
    exact Target.ofPath?_written text (by decide) (List.all_eq_true.1 rfl) fits
  simp [Request.ofTexts?, Method.parse?, target, requestForAll]

/-- A text of `n` tildes, each of which is escaped when it is passed on. -/
def tildes (n : Nat) : String := String.ofList (List.replicate n '~')

theorem bytes_tildes (n : Nat) : Text.bytes (tildes n) = List.replicate n 0x7E := by
  have tilde : String.utf8EncodeChar '~' = [0x7E] := by decide
  rw [tildes, Text.bytes_ofList_eq_encode, Text.encode, List.flatMap_replicate, tilde,
    List.flatten_replicate_singleton]

theorem accepts_tildes (n : Nat) :
    standard.Accepts (requestForAll (tildes n)) "f" (allWanted (tildes n)) := by
  have other (b : UInt8) (h : b ≠ 0x7E) : b ∉ Text.bytes (tildes n) := by
    rw [bytes_tildes]
    exact fun member => h (List.eq_of_mem_replicate member)
  exact accepts_requestForAll (other _ (by decide)) (other _ (by decide)) (other _ (by decide))

theorem length_encode_tildes (n : Nat) :
    (Text.bytes (Form.encode [("a", tildes n)])).length = 3 * n + 2 := by
  have name : Text.encode (Form.encodePart "a") = Text.bytes "a" := by decide
  have one : (Text.bytes "a").length = 1 := by decide
  have three : (Form.written 0x7E).length = 3 := by decide
  rw [Form.bytes_encode, List.map_singleton, List.intercalate_singleton, Form.encode_encodePair,
    name, List.length_append, List.length_cons, one, Form.encode_encodePart, bytes_tildes,
    List.flatMap_replicate]
  simp [three]
  omega

theorem ofTexts?_tildes {n : Nat} (short : n ≤ 65000) :
    Request.ofTexts? "GET" ("/api/forms/f/filteredResponses?filters=%5B%5D&a=" ++ tildes n) [] =
      some (requestForAll (tildes n)) := by
  refine ofTexts?_requestForAll ?_ (by rwa [bytes_tildes, List.length_replicate])
  rw [bytes_tildes]
  intro b member
  rw [List.eq_of_mem_replicate member]
  decide

theorem isPlainName_f : IsPlainName "f" := by decide

theorem not_isShort_tildes {n : Nat} (long : 21845 ≤ n) :
    ¬Remote.onHost.IsShort "f" (allWanted (tildes n)).query := by
  refine Remote.not_isShort_of_length Remote.onHost_hasRequestableRoot (isPlainName_f.literal _) ?_
  show Target.maxLength < (Text.bytes (Form.encode [("a", tildes n)])).length
  rw [length_encode_tildes, Target.maxLength]
  omega

theorem exists_outgoing_tildes {n : Nat} (long : 21845 ≤ n) :
    ∃ url, Remote.onHost.outgoing "f" (allWanted (tildes n)).query =
      .error (Remote.noRequestFor url) :=
  Remote.exists_outgoing_of_not_isShort Remote.onHost_hasRequestableRoot (isPlainName_f.literal _)
    (not_isShort_tildes long)

/-! ## What is passed on -/

section Parameters

variable {remote : Remote} {root : Url} {server : Server} {request : Request} {formId : String}
  {wanted : FilterRequest}

/-- For an acceptable request the client is given one request to the provider, unless that would be
too long. In the query of what it asks for are all parameters but the filters, as they were and in
order, and there is no query if there are none. If it would be too long, the client is given
nothing, and the answer is that of a failure. -/
theorem forwards_parameters (h : remote.HasRequestableRoot root)
    (accepts : server.Accepts request formId wanted) (plain : IsPlainName formId) {σ : Type}
    (send : Outgoing → σ → Outcome × σ) (reader : TextReader) (requestId : String) (state : σ) :
    let given := (Form.decode (request.target.query.getD [])).filter (·.1 ≠ "filters")
    (remote.IsShort formId wanted.query →
      ∃ sent target, server.forwards remote send reader requestId request state = [sent] ∧
        Target.parse? (String.ofList sent.url.target) = some target ∧
        Form.decode (target.query.getD []) = given ∧ (target.query = none ↔ given = [])) ∧
    (¬remote.IsShort formId wanted.query →
      server.forwards remote send reader requestId request state = [] ∧
        (server.handle (remote.source send reader) requestId request state).answer =
          server.reply request (Route.ofPath? request.target.path) failedContent) := by
  intro given
  have literal := plain.literal (Url.isWebScheme root.scheme)
  have params : wanted.query.params = given := by
    rw [FilterRequest.query_of_parse accepts.2.2]
    rfl
  constructor
  · intro short
    obtain ⟨url, asks, brief, made⟩ := Remote.exists_outgoing_of_isShort h literal short
    refine ⟨⟨url, wanted.query.authorization⟩, _, ?_, asks.parse?_target h.toHasRoot brief, ?_, ?_⟩
    · rw [forwards_of_accepts server remote send reader requestId state accepts, made]
    · rw [asks.decode_query, params]
    · rw [Option.map_eq_none_iff, asks.unasked, params]
  · intro long
    obtain ⟨url, refused⟩ := Remote.exists_outgoing_of_not_isShort h literal long
    constructor
    · rw [forwards_of_accepts server remote send reader requestId state accepts, refused]
    · rw [answer_remote accepts remote send reader requestId state, Remote.outcome, refused]
      rfl

end Parameters

/-- Letters outside ASCII and tildes are escaped for the provider, and read as they were. -/
theorem forwards_parameters_of_umlaut :
    let remote := Remote.onHost
    let send : Outgoing → Unit → Outcome × Unit := fun _ state => (.lost, state)
    remote.HasRequestableRoot Remote.onHostRoot ∧
      standard.Accepts (requestForAll "ä~") "f" (allWanted "ä~") ∧ IsPlainName "f" ∧
      remote.IsShort "f" (allWanted "ä~").query ∧
      ∃ sent target, standard.forwards remote send .utf8 "" (requestForAll "ä~") () = [sent] ∧
        Target.parse? (String.ofList sent.url.target) = some target ∧
        Form.decode (target.query.getD []) = [("a", "ä~")] := by
  intro remote send
  have accepts : standard.Accepts (requestForAll "ä~") "f" (allWanted "ä~") :=
    accepts_requestForAll (by decide) (by decide) (by decide)
  have short : remote.IsShort "f" (allWanted "ä~").query := by decide +kernel
  obtain ⟨sent, target, forwarded, read, found, -⟩ :=
    (forwards_parameters Remote.onHost_hasRequestableRoot accepts isPlainName_f send .utf8 "" ()).1
      short
  have given : (Form.decode ((requestForAll "ä~").target.query.getD [])).filter
      (·.1 ≠ "filters") = [("a", "ä~")] := by decide
  exact ⟨Remote.onHost_hasRequestableRoot, accepts, isPlainName_f, short, sent, target, forwarded,
    read, found.trans given⟩

/-- Of a text that is short enough to be asked for, but too long to be passed on, nothing is given
to the client. -/
theorem forwards_parameters_of_tildes :
    let remote := Remote.onHost
    let send : Outgoing → Unit → Outcome × Unit := fun _ state => (.lost, state)
    let request := requestForAll (tildes 22000)
    Request.ofTexts? "GET" ("/api/forms/f/filteredResponses?filters=%5B%5D&a=" ++ tildes 22000) [] =
        some request ∧
      remote.HasRequestableRoot Remote.onHostRoot ∧
      standard.Accepts request "f" (allWanted (tildes 22000)) ∧ IsPlainName "f" ∧
      ¬∃ sent target, sent ∈ standard.forwards remote send .utf8 "" request () ∧
        Target.parse? (String.ofList sent.url.target) = some target ∧
        Form.decode (target.query.getD []) =
          (Form.decode (request.target.query.getD [])).filter (·.1 ≠ "filters") := by
  have long : 21845 ≤ 22000 := by decide
  have short : 22000 ≤ 65000 := by decide
  refine ⟨ofTexts?_tildes short, Remote.onHost_hasRequestableRoot, accepts_tildes _,
    isPlainName_f, ?_⟩
  rintro ⟨sent, target, forwarded, -⟩
  obtain ⟨url, refused⟩ := exists_outgoing_tildes long
  rw [forwards_of_accepts standard _ _ _ "" () (accepts_tildes _), refused] at forwarded
  exact absurd forwarded List.not_mem_nil

end Server

end FormSieve
