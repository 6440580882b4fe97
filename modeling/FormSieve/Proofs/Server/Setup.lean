import FormSieve.Server.Basic

/-!
# Servers from accepted configurations

A configuration that is accepted names a limit, so its limit never stands in the way of a server.
What does is the wildcard on its list of origins: accepting a configuration does not look at that
list, and no server can be made with it. The main statement is that nothing else is in the way.
-/

namespace FormSieve

namespace Config

/-- A limit other than zero is the limit of pages. -/
theorem pageLimit_eq_ok {config : Config} (positive : 0 < config.defaultLimit) :
    config.pageLimit = .ok ⟨config.defaultLimit, positive⟩ := by
  rw [pageLimit, PageLimit.ofUInt64?, dif_pos positive]

theorem pageLimit_eq_error {config : Config} (zero : ¬0 < config.defaultLimit) :
    config.pageLimit = .error .zeroLimit := by
  rw [pageLimit, PageLimit.ofUInt64?, dif_neg zero]

/-- What is accepted is a text that decodes to a configuration with a limit. -/
theorem load_eq_ok_iff {path : String} {content : Except String Bytes} {config : Config} :
    load path content = .ok config ↔
      ∃ text, content = .ok (Text.bytes text) ∧
        Json.decode decoder (Text.bytes text) = .ok config ∧ 0 < config.defaultLimit := by
  constructor
  · intro accepted
    cases content with
    | error reason => exact nomatch accepted
    | ok bs =>
        rw [load] at accepted
        cases written : Text.ofBytes? bs with
        | none => simp [written] at accepted
        | some text =>
            simp only [written, Option.isNone_some, Bool.false_eq_true, if_false] at accepted
            refine ⟨text, by rw [Text.bytes_eq_of_ofBytes? written], ?_⟩
            rw [Text.bytes_eq_of_ofBytes? written]
            cases read : Json.decode decoder bs with
            | error refusal => simp [read] at accepted
            | ok found =>
                by_cases positive : 0 < found.defaultLimit
                · simp only [read, pageLimit_eq_ok positive, Except.ok.injEq] at accepted
                  subst accepted
                  exact ⟨rfl, positive⟩
                · simp [read, pageLimit_eq_error positive] at accepted
  · rintro ⟨text, rfl, read, positive⟩
    simp [load, read, pageLimit_eq_ok positive]

end Config

/-- A list of origins is refused only for the wildcard. -/
theorem Origins.ofList?_eq_none_iff {entries : List String} :
    ofList? entries = none ↔ wildcard ∈ entries := by
  rw [ofList?]
  cases entries with
  | nil => simp
  | cons entry entries =>
      by_cases listed : wildcard ∈ entry :: entries
      · simp [listed]
      · simp [listed]

namespace Server

/-- The only thing that is in the way of a server with a limit is the wildcard among its origins. -/
theorem ofConfig_eq {config : Config} (positive : 0 < config.defaultLimit) :
    ofConfig config =
      match Origins.ofList? config.origins with
      | none => .error .wildcardOrigin
      | some origins => .ok ⟨config, ⟨config.defaultLimit, positive⟩, origins⟩ := by
  have limit := Config.pageLimit_eq_ok positive
  cases origins : Origins.ofList? config.origins with
  | none => simp only [ofConfig, limit, origins]
  | some origins' => simp only [ofConfig, limit, origins]

/-- An accepted configuration is never faulted for itself. There is a server for it, with its own
settings and limit, unless the wildcard is on its list of origins; then there is none. -/
theorem ofConfig_of_load {path : String} {content : Except String Bytes} {config : Config}
    (accepted : Config.load path content = .ok config) :
    (∀ fault, ofConfig config ≠ .error (.config fault)) ∧
      ((∃ server, ofConfig config = .ok server) ↔ Origins.wildcard ∉ config.origins) ∧
      (ofConfig config = .error .wildcardOrigin ↔ Origins.wildcard ∈ config.origins) ∧
      ∀ server, ofConfig config = .ok server →
        server.config = config ∧ server.limit.value = config.defaultLimit := by
  obtain ⟨text, -, -, positive⟩ := Config.load_eq_ok_iff.1 accepted
  have refused : Origins.ofList? config.origins = none ↔ Origins.wildcard ∈ config.origins :=
    Origins.ofList?_eq_none_iff
  rw [ofConfig_eq positive]
  cases origins : Origins.ofList? config.origins with
  | none => simp [refused.1 origins]
  | some origins' =>
      have free : Origins.wildcard ∉ config.origins := fun listed =>
        nomatch origins.symm.trans (refused.2 listed)
      refine ⟨by simp, by simp [free], by simp [free], ?_⟩
      rintro server ⟨⟩
      exact ⟨rfl, rfl⟩

/-- Among the origins are an address and a text that cannot be a header value. -/
theorem ofConfig_of_load_listed :
    let text := "\x7b\"cors_origins\":[\"https://a.example\",\"\\n\"],\"default_limit\":7\x7d"
    let config : Config := { origins := ["https://a.example", "\n"], defaultLimit := 7 }
    Config.load "" (.ok (Text.bytes text)) = .ok config ∧
      ∃ server, ofConfig config = .ok server ∧ server.limit.value = 7 := by
  intro text config
  have accepted : Config.load "" (.ok (Text.bytes text)) = .ok config :=
    Config.load_eq_ok_iff.2 ⟨text, rfl, rfl, by decide⟩
  obtain ⟨-, made, -, settings⟩ := ofConfig_of_load accepted
  obtain ⟨server, made⟩ := made.2 (by decide)
  exact ⟨accepted, server, made, (settings server made).2⟩

/-- The wildcard as the only origin is accepted, and there is no server for it. -/
theorem no_server_of_wildcard :
    let text := "\x7b\"cors_origins\":[\"*\"]\x7d"
    ∃ config, Config.load "" (.ok (Text.bytes text)) = .ok config ∧
      ∀ server, ofConfig config ≠ .ok server := by
  intro text
  refine ⟨{ origins := ["*"] }, Config.load_eq_ok_iff.2 ⟨text, rfl, rfl, by decide⟩, ?_⟩
  have refused : ofConfig { origins := ["*"] } = .error .wildcardOrigin := by
    rw [ofConfig_eq (by decide), Origins.ofList?_eq_none_iff.2 (by decide)]
  intro server made
  exact nomatch refused.symm.trans made

end Server

end FormSieve
