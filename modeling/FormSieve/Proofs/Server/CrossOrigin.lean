import FormSieve.Proofs.Server.Setup
import FormSieve.Provider.Memory

/-!
# Which pages may read the answers

Every answer says which origin may read it, whatever was asked for and whatever came of it. This is
decided by the list of origins in the configuration and by the origin that the request gives. An
empty list lets any origin read. A list of which no entry can be a header value does not pass for an
empty one: it lets none read.
-/

namespace FormSieve

open Http

/-- The header that names the origin that may read an answer. -/
def allowOrigin : String := "access-control-allow-origin"

/-- The values of a header, in order. -/
def Http.Reply.valuesOf (r : Reply) (name : String) : List String :=
  (r.headers.filter (·.1 = name)).map (·.2)

/-- The origin of a request. If several are given, the first counts. -/
def Http.Request.origin? (r : Request) : Option Bytes := (r.valuesOf "origin").head?

/-! ## Lists of origins -/

namespace Origins

variable {entries : List String} {origins : Origins} {request : Request}

theorem ofList?_eq_some_iff :
    ofList? entries = some origins ↔
      wildcard ∉ entries ∧
        (if entries = [] then any
          else listed ((entries.map Text.bytes).filter isHeaderValue)) = origins := by
  rw [ofList?]
  cases entries with
  | nil => simp
  | cons entry entries =>
      by_cases inside : wildcard ∈ entry :: entries
      · simp [inside]
      · simp [inside]

/-- Nothing but its origin counts of a request. -/
theorem allowed_congr {request' : Request} (same : request'.origin? = request.origin?) :
    origins.allowed request' = origins.allowed request := by
  cases origins with
  | any => rfl
  | listed entries =>
      rw [Request.origin?, Request.origin?] at same
      rw [allowed, allowed, same]

/-- What is allowed by a list is the entry that is the origin of the request, if it can be a header
value. -/
theorem allowed_listed_eq_some_iff {value : String} :
    (listed ((entries.map Text.bytes).filter isHeaderValue)).allowed request = some value ↔
      value ∈ entries ∧ isHeaderValue (Text.bytes value) = true ∧
        request.origin? = some (Text.bytes value) := by
  have mem_iff (origin : Bytes) :
      origin ∈ (entries.map Text.bytes).filter isHeaderValue ↔
        ∃ entry ∈ entries, isHeaderValue (Text.bytes entry) = true ∧ origin = Text.bytes entry := by
    rw [List.mem_filter, List.mem_map]
    constructor
    · rintro ⟨⟨entry, inside, rfl⟩, valid⟩
      exact ⟨entry, inside, valid, rfl⟩
    · rintro ⟨entry, inside, valid, rfl⟩
      exact ⟨⟨entry, inside, rfl⟩, valid⟩
  rw [allowed, Request.origin?]
  cases (request.valuesOf "origin").head? with
  | none => simp
  | some origin =>
      simp only [List.contains_iff_mem, mem_iff, Option.some_inj]
      split
      · next known =>
          obtain ⟨entry, inside, valid, rfl⟩ := known
          rw [Text.ofBytes?_bytes, Option.some_inj, Text.bytes_inj]
          exact ⟨fun same => same ▸ ⟨inside, valid, rfl⟩, fun granted => granted.2.2⟩
      · next unknown =>
          refine iff_of_false (fun allowed => nomatch allowed) ?_
          rintro ⟨inside, valid, rfl⟩
          exact unknown ⟨value, inside, valid, rfl⟩

end Origins

namespace Server

variable {server : Server} {request : Request} {config : Config}

/-! ## Servers -/

theorem ofList?_of_ofConfig (made : ofConfig config = .ok server) :
    Origins.ofList? config.origins = some server.origins := by
  rw [ofConfig] at made
  split at made
  · cases made
  · split at made
    · cases made
    · next origins read =>
        obtain rfl := Except.ok.inj made
        exact read

/-- The origin `value` is granted to a request: it is on the list, it can be a header value, and it
is the origin of the request. -/
def Grants (config : Config) (request : Request) (value : String) : Prop :=
  value ∈ config.origins ∧ isHeaderValue (Text.bytes value) = true ∧
    request.origin? = some (Text.bytes value)

theorem allowed_of_unlisted (made : ofConfig config = .ok server) (unlisted : config.origins = []) :
    server.origins.allowed request = some Origins.wildcard := by
  obtain ⟨-, origins⟩ := Origins.ofList?_eq_some_iff.1 (ofList?_of_ofConfig made)
  rw [← origins, if_pos unlisted, Origins.allowed]

theorem allowed_of_listed (made : ofConfig config = .ok server) (listed : config.origins ≠ [])
    (request : Request) (value : String) :
    server.origins.allowed request = some value ↔ Grants config request value := by
  obtain ⟨-, origins⟩ := Origins.ofList?_eq_some_iff.1 (ofList?_of_ofConfig made)
  rw [← origins, if_neg listed, Origins.allowed_listed_eq_some_iff, Grants]

/-! ## Answers -/

/-- An answer names the origin that is allowed, if there is one, and no other. -/
theorem valuesOf_reply (route : Option Route) (content : Content) :
    (server.reply request route content).valuesOf allowOrigin =
      (server.origins.allowed request).toList := by
  have kept : (((server.origins.allowed request).toList.map fun o =>
      ("access-control-allow-origin", o)).filter (·.1 = "access-control-allow-origin")).map (·.2) =
        (server.origins.allowed request).toList := by
    cases server.origins.allowed request <;> rfl
  have dropped : (content.contentType.toList.map fun t => ("content-type", t)).filter
      (·.1 = "access-control-allow-origin") = [] := by
    cases content.contentType <;> rfl
  unfold reply Reply.valuesOf allowOrigin
  simp only [List.filter_append, List.filter_cons, List.map_append, kept, dropped]
  cases route with
  | none => cases request.method <;> simp
  | some route => cases request.method <;> simp

section Policy

variable {σ : Type} (source : Source σ) (requestId : String) (state : σ)

theorem valuesOf_handle :
    (server.handle source requestId request state).answer.valuesOf allowOrigin =
      (server.origins.allowed request).toList := valuesOf_reply _ _

theorem valuesOf_handle_eq_singleton_iff {value : String} :
    (server.handle source requestId request state).answer.valuesOf allowOrigin = [value] ↔
      server.origins.allowed request = some value := by
  rw [valuesOf_handle]
  cases server.origins.allowed request <;> simp

theorem valuesOf_handle_ne_nil_iff :
    (server.handle source requestId request state).answer.valuesOf allowOrigin ≠ [] ↔
      ∃ value, server.origins.allowed request = some value := by
  rw [valuesOf_handle]
  cases server.origins.allowed request <;> simp

/-- Without the wildcard on its list, a configuration decides together with the origin of a request
which origin may read the answer: any if the list is empty, and otherwise the origin of the request
if it is on the list and can be a header value, and else none. -/
theorem cross_origin_policy (free : Origins.wildcard ∉ config.origins) :
    (0 < config.defaultLimit → ∃ server, ofConfig config = .ok server) ∧
      ∀ server, ofConfig config = .ok server →
        ∀ {σ : Type} (source : Source σ) (requestId : String) (request : Request) (state : σ),
          let carried := (server.handle source requestId request state).answer.valuesOf allowOrigin
          (carried = [Origins.wildcard] ↔ config.origins = []) ∧
            (config.origins ≠ [] →
              (carried ≠ [] ↔ ∃ value, Grants config request value) ∧
                ∀ value, Grants config request value → carried = [value]) ∧
            (config.origins ≠ [] →
              (∀ entry ∈ config.origins, isHeaderValue (Text.bytes entry) = false) →
              carried = []) ∧
            ∀ {τ : Type} (source' : Source τ) (requestId' : String) (request' : Request)
              (state' : τ), request'.origin? = request.origin? →
              (server.handle source' requestId' request' state').answer.valuesOf allowOrigin =
                carried := by
  refine ⟨fun positive => ?_, fun server made σ source requestId request state => ?_⟩
  · cases origins : Origins.ofList? config.origins with
    | none => exact absurd (Origins.ofList?_eq_none_iff.1 origins) free
    | some origins' => exact ⟨_, by rw [ofConfig_eq positive, origins]⟩
  intro carried
  have single (value : String) : carried = [value] ↔ _ :=
    valuesOf_handle_eq_singleton_iff source requestId state
  have named : carried ≠ [] ↔ _ := valuesOf_handle_ne_nil_iff source requestId state
  refine ⟨?_, fun listed => ?_, fun listed invalid => ?_, ?_⟩
  · by_cases unlisted : config.origins = []
    · exact iff_of_true ((single _).2 (allowed_of_unlisted made unlisted)) unlisted
    · refine iff_of_false (fun any => free ?_) unlisted
      exact ((allowed_of_listed made unlisted request _).1 ((single _).1 any)).1
  · have granted := allowed_of_listed made listed request
    exact ⟨named.trans (exists_congr granted), fun value given =>
      (single value).2 ((granted value).2 given)⟩
  · refine Classical.byContradiction fun granted => ?_
    obtain ⟨value, allowed⟩ := named.1 granted
    obtain ⟨inside, valid, -⟩ := (allowed_of_listed made listed request value).1 allowed
    exact Bool.false_ne_true ((invalid value inside).symm.trans valid)
  · intro τ source' requestId' request' state' same
    rw [valuesOf_handle, Origins.allowed_congr same]
    exact (valuesOf_handle source requestId state).symm

/-- Of two entries one is the origin of the request and the other cannot be a header value. The
same origin may read what any other request comes to, and none may if the other entry is the only
one. -/
theorem cross_origin_policy_of_listed :
    let config : Config := { origins := ["https://a.example", "\n"] }
    let origin : Header := ⟨Text.bytes "origin", Text.bytes "https://a.example"⟩
    let get : Request := ⟨.get, ⟨Text.bytes "/health", none⟩, [origin]⟩
    let post : Request := ⟨.other (Text.bytes "POST"), ⟨Text.bytes "/", none⟩, [origin]⟩
    (∃ server, ofConfig config = .ok server ∧
      (server.handle Memory.source "" get .empty).answer.valuesOf allowOrigin =
        ["https://a.example"] ∧
      (server.handle Memory.source "" post .empty).answer.valuesOf allowOrigin =
        ["https://a.example"]) ∧
    ∃ server, ofConfig { config with origins := ["\n"] } = .ok server ∧
      (server.handle Memory.source "" get .empty).answer.valuesOf allowOrigin = [] := by
  intro config origin get post
  have free : Origins.wildcard ∉ config.origins := by decide
  have free' : Origins.wildcard ∉ { config with origins := ["\n"] }.origins := by decide
  obtain ⟨exists_server, policy⟩ := cross_origin_policy free
  obtain ⟨server, made⟩ := exists_server (by decide)
  obtain ⟨-, listed, -, alike⟩ := policy server made Memory.source "" get .empty
  have granted : Grants config get "https://a.example" := by unfold Grants; decide
  have answered := (listed (by decide)).2 _ granted
  obtain ⟨exists_server', policy'⟩ := cross_origin_policy free'
  obtain ⟨server', made'⟩ := exists_server' (by decide)
  obtain ⟨-, -, invalid, -⟩ := policy' server' made' Memory.source "" get .empty
  exact ⟨⟨server, made, answered, (alike Memory.source "" post .empty rfl).trans answered⟩,
    server', made', invalid (by decide) (by decide)⟩

/-- A request may give two origins, and the second of them may be an entry of the list. The answer
still names none. -/
theorem no_origin_of_second :
    let config : Config := { origins := ["http://b.example"] }
    ∃ request, Request.ofTexts? "GET" "/health"
        [("Origin", "http://a.example"), ("Origin", "http://b.example")] = some request ∧
      Origins.wildcard ∉ config.origins ∧ config.origins ≠ [] ∧
      (∃ origin ∈ request.valuesOf "origin", ∃ entry ∈ config.origins,
        isHeaderValue (Text.bytes entry) = true ∧ origin = Text.bytes entry) ∧
      ∃ server, ofConfig config = .ok server ∧
        (server.handle Memory.source "" request .empty).answer.valuesOf allowOrigin = [] := by
  intro config
  let request : Request := ⟨.get, ⟨Text.bytes "/health", none⟩,
    [⟨Text.bytes "origin", Text.bytes "http://a.example"⟩,
      ⟨Text.bytes "origin", Text.bytes "http://b.example"⟩]⟩
  refine ⟨request, by decide, by decide, by decide,
    ⟨Text.bytes "http://b.example", by decide, by decide⟩, ?_⟩
  have made : ofConfig config = .ok ⟨config, .standard, .listed [Text.bytes "http://b.example"]⟩ :=
    rfl
  refine ⟨_, made, ?_⟩
  have unknown : (Origins.listed [Text.bytes "http://b.example"]).allowed request = none := by
    decide
  rw [valuesOf_handle, unknown]
  rfl

end Policy

end Server

end FormSieve
