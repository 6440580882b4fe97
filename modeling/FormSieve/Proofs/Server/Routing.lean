import FormSieve.Server.Basic

/-!
# Which requests reach the source

A request is acceptable if it asks for the filtered submissions of a form, by `GET` or `HEAD`,
and if its filters and its limit are valid. An acceptable request makes one fetch; all others are
answered without touching the source. What a request fetches is seen by recording it, which
changes neither the answer nor the source.
-/

namespace FormSieve

open Http

/-! ## Paths -/

namespace Route

theorem behind?_eq_some_iff {start path rest : Bytes} :
    behind? start path = some rest ↔ path = start ++ rest := by
  induction start generalizing path with
  | nil => simp [behind?]
  | cons a start ih =>
      cases path with
      | nil => simp [behind?]
      | cons b path =>
          by_cases same : a = b
          · simp [behind?, same, ih]
          · simp [behind?, same, Ne.symm same]

theorem formsPath_append_ne_healthPath (rest : Bytes) : formsPath ++ rest ≠ healthPath := by
  intro same
  have second := congrArg (·[1]?) same
  rw [List.getElem?_append_left (by decide)] at second
  exact absurd second (by decide)

/-- A segment ends at the first slash, and the action begins there. -/
theorem cut_at_slash_iff {rest segment : Bytes} :
    (rest.dropWhile (· ≠ Ascii.slash) = actionPath ∧
        rest.takeWhile (· ≠ Ascii.slash) = segment) ↔
      Ascii.slash ∉ segment ∧ rest = segment ++ actionPath := by
  constructor
  · rintro ⟨action, rfl⟩
    constructor
    · intro member
      have bounded := List.all_eq_true.1 (List.all_takeWhile (p := (· ≠ Ascii.slash)) (l := rest))
      simpa using bounded _ member
    · rw [← action, List.takeWhile_append_dropWhile]
  · rintro ⟨free, rfl⟩
    have kept : ∀ b ∈ segment, decide (b ≠ Ascii.slash) = true := by
      intro b hb
      rw [decide_eq_true_iff]
      rintro rfl
      exact free hb
    obtain ⟨action, begins⟩ : ∃ action, actionPath = Ascii.slash :: action := ⟨_, rfl⟩
    rw [List.dropWhile_append_of_pos kept, List.takeWhile_append_of_pos kept, begins]
    simp

/-- The route to the filtered submissions of a form names the form by one segment. -/
theorem ofPath?_eq_filteredResponses_iff {path segment : Bytes} :
    ofPath? path = some (.filteredResponses segment) ↔
      Ascii.slash ∉ segment ∧ path = formsPath ++ segment ++ actionPath := by
  rw [ofPath?]
  split
  · next health =>
      refine iff_of_false (by simp) fun ⟨_, h⟩ => ?_
      rw [h, List.append_assoc] at health
      exact formsPath_append_ne_healthPath _ health
  · cases begun : behind? formsPath path with
    | none =>
        refine iff_of_false (by simp) fun ⟨_, h⟩ => ?_
        rw [List.append_assoc, ← behind?_eq_some_iff, begun] at h
        exact absurd h (by simp)
    | some rest =>
        obtain rfl := behind?_eq_some_iff.1 begun
        rw [List.append_assoc, List.append_cancel_left_eq, ← cut_at_slash_iff]
        simp

end Route

/-! ## Acceptable requests -/

namespace Server

/-- A request that asks for the filtered submissions of the form `formId`, with valid filters and
a valid limit; `wanted` is what it asks for. -/
def Accepts (server : Server) (request : Request) (formId : String) (wanted : FilterRequest) :
    Prop :=
  (request.method = .get ∨ request.method = .head) ∧
    (∃ segment, Ascii.slash ∉ segment ∧
      request.target.path = Route.formsPath ++ segment ++ Route.actionPath ∧
      Text.ofBytes? (Percent.decode segment) = some formId) ∧
    FilterRequest.parse formId (Form.decode (request.target.query.getD []))
      (FilterRequest.authorization request) server.limit = .ok wanted

theorem Accepts.wanted_eq {server : Server} {request : Request} {formId : String}
    {wanted other : FilterRequest} (h : server.Accepts request formId wanted)
    (h' : server.Accepts request formId other) : wanted = other :=
  Except.ok.inj (h.2.2.symm.trans h'.2.2)

/-- The form that a path asks about. -/
def formOf? (path : Bytes) : Option String :=
  match Route.ofPath? path with
  | some (.filteredResponses segment) => Route.formId? segment
  | _ => none

/-- What an acceptable request asks for. -/
def accepted? (server : Server) (request : Request) : Option (String × FilterRequest) :=
  if request.method = .get ∨ request.method = .head then
    (formOf? request.target.path).bind fun formId =>
      match FilterRequest.parse formId (Form.decode (request.target.query.getD []))
          (FilterRequest.authorization request) server.limit with
      | .ok wanted => some (formId, wanted)
      | .error _ => none
  else none

theorem formOf?_eq_some_iff {path : Bytes} {formId : String} :
    formOf? path = some formId ↔
      ∃ segment, Ascii.slash ∉ segment ∧
        path = Route.formsPath ++ segment ++ Route.actionPath ∧
        Text.ofBytes? (Percent.decode segment) = some formId := by
  rw [formOf?]
  constructor
  · intro h
    split at h
    · next segment route =>
        obtain ⟨free, same⟩ := Route.ofPath?_eq_filteredResponses_iff.1 route
        exact ⟨segment, free, same, h⟩
    · exact absurd h (by simp)
  · rintro ⟨segment, free, same, named⟩
    rw [Route.ofPath?_eq_filteredResponses_iff.2 ⟨free, same⟩]
    exact named

theorem accepted?_eq_some_iff {server : Server} {request : Request} {formId : String}
    {wanted : FilterRequest} :
    server.accepted? request = some (formId, wanted) ↔ server.Accepts request formId wanted := by
  rw [accepted?, Accepts, Option.ite_none_right_eq_some, Option.bind_eq_some_iff,
    ← formOf?_eq_some_iff]
  refine and_congr_right fun _ => ?_
  constructor
  · rintro ⟨form, named, parsed⟩
    split at parsed
    · next wanted ok =>
        obtain ⟨rfl, rfl⟩ := Prod.mk.inj (Option.some.inj parsed)
        exact ⟨named, ok⟩
    · exact absurd parsed (by simp)
  · rintro ⟨named, ok⟩
    exact ⟨formId, named, by rw [ok]⟩

/-! ## Handling -/

/-- The outcome of a fetch as an answer. -/
def contentOf (wanted : FilterRequest) : Except Failure Page → Content
  | .ok page => .json 200 (wanted.filters.apply page wanted.limit).print
  | .error failure => (Denial.ofFailure failure).content

/-- A request is answered by its route if it comes by `GET` or `HEAD` and there is one. All others
are answered alike by all sources, which are left as they are, and are not logged. -/
theorem handle_cases (server : Server) (request : Request) :
    (∃ route, (request.method = .get ∨ request.method = .head) ∧
      Route.ofPath? request.target.path = some route ∧
      ∀ {σ : Type} (source : Source σ) (requestId : String) (state : σ),
        server.handle source requestId request state =
          let handled := server.respond source requestId route request state
          ⟨server.reply request (some route) handled.answer, handled.log, handled.state⟩) ∨
    ∃ answer, ∀ {σ : Type} (source : Source σ) (requestId : String) (state : σ),
      server.handle source requestId request state = ⟨answer, [], state⟩ := by
  cases path : Route.ofPath? request.target.path with
  | none =>
      let content : Content := if request.method = .options then .empty 200 else .empty 404
      refine .inr ⟨server.reply request none content, ?_⟩
      intro σ source requestId state
      simp only [handle, path, content]
      cases request.method <;> rfl
  | some route =>
      cases method : request.method with
      | get =>
          refine .inl ⟨route, .inl rfl, rfl, ?_⟩
          intro σ source requestId state
          simp only [handle, path, method]
      | head =>
          refine .inl ⟨route, .inr rfl, rfl, ?_⟩
          intro σ source requestId state
          simp only [handle, path, method]
      | options =>
          refine .inr ⟨server.reply request (some route) (.empty 200), ?_⟩
          intro σ source requestId state
          simp only [handle, path, method]
      | other name =>
          refine .inr ⟨server.reply request (some route) (.empty 405), ?_⟩
          intro σ source requestId state
          simp only [handle, path, method]

section Handling

variable {σ : Type} (server : Server) (source : Source σ) (requestId : String)
  {request : Request} (state : σ)

/-- A request for the filtered submissions of a form is answered by the route. -/
theorem handle_of_form (method : request.method = .get ∨ request.method = .head) {formId : String}
    (form : formOf? request.target.path = some formId) :
    server.handle source requestId request state =
      let handled := server.filteredResponses source requestId formId request state
      ⟨server.reply request (Route.ofPath? request.target.path) handled.answer, handled.log,
        handled.state⟩ := by
  obtain ⟨segment, free, path, named⟩ := formOf?_eq_some_iff.1 form
  have route := Route.ofPath?_eq_filteredResponses_iff.2 ⟨free, path⟩
  rcases method with get | head
  · simp [handle, route, get, respond, Route.formId?, named]
  · simp [handle, route, head, respond, Route.formId?, named]

/-- An acceptable request makes its fetch and is answered by what comes of it. -/
theorem handle_of_accepts {formId : String} {wanted : FilterRequest}
    (h : server.Accepts request formId wanted) :
    (server.handle source requestId request state).state =
        (source.fetch formId wanted.query state).2 ∧
      (server.handle source requestId request state).answer =
        server.reply request (Route.ofPath? request.target.path)
          (contentOf wanted (source.fetch formId wanted.query state).1) := by
  obtain ⟨method, form, parsed⟩ := h
  rw [handle_of_form server source requestId state method (formOf?_eq_some_iff.2 form)]
  simp only [filteredResponses, parsed]
  obtain ⟨result, after⟩ := source.fetch formId wanted.query state
  cases result <;> exact ⟨rfl, rfl⟩

/-- A request for a route that is not acceptable leaves the source as it is. -/
theorem respond_of_not_accepted (method : request.method = .get ∨ request.method = .head)
    {route : Route} (path : Route.ofPath? request.target.path = some route)
    (h : server.accepted? request = none) :
    (server.respond source requestId route request state).state = state := by
  cases route with
  | health => rfl
  | filteredResponses segment =>
      rw [accepted?, if_pos method, formOf?, path] at h
      simp only [respond]
      cases named : Route.formId? segment with
      | none => rfl
      | some formId =>
          simp only [named, Option.bind_some] at h
          simp only [filteredResponses]
          split
          · rfl
          · next wanted parsed => simp [parsed] at h

/-- So does every other request that is not acceptable. -/
theorem handle_of_not_accepted (h : server.accepted? request = none) :
    (server.handle source requestId request state).state = state := by
  rcases server.handle_cases request with ⟨route, method, path, handled⟩ | ⟨answer, handled⟩
  · rw [handled]
    exact respond_of_not_accepted server source requestId state method path h
  · rw [handled]

end Handling

/-! ## Sources that agree -/

/-- What is seen of the handling of a request from outside the source. -/
def Handled.visible (handled : Handled σ α) : α × List LogLine := (handled.answer, handled.log)

section Agreement

variable {σ τ : Type} {server : Server} {source : Source σ} {other : Source τ}
  {requestId formId : String} {request : Request} {state : σ} {state' : τ}

theorem filteredResponses_congr
    (agree : ∀ wanted, FilterRequest.parse formId (Form.decode (request.target.query.getD []))
        (FilterRequest.authorization request) server.limit = .ok wanted →
      (source.fetch formId wanted.query state).1 = (other.fetch formId wanted.query state').1) :
    (server.filteredResponses source requestId formId request state).visible =
      (server.filteredResponses other requestId formId request state').visible := by
  simp only [filteredResponses]
  split
  · rfl
  · next wanted parsed =>
      have fetched := agree wanted parsed
      revert fetched
      obtain ⟨result, after⟩ := source.fetch formId wanted.query state
      obtain ⟨result', after'⟩ := other.fetch formId wanted.query state'
      rintro (rfl : result = result')
      cases result <;> rfl

/-- Sources that yield the same for what a request asks of them are not told apart by its
answer. -/
theorem handle_congr
    (agree : ∀ formId wanted, server.Accepts request formId wanted →
      (source.fetch formId wanted.query state).1 = (other.fetch formId wanted.query state').1) :
    (server.handle source requestId request state).visible =
      (server.handle other requestId request state').visible := by
  have responded (method : request.method = .get ∨ request.method = .head) (route : Route)
      (path : Route.ofPath? request.target.path = some route) :
      (server.respond source requestId route request state).visible =
        (server.respond other requestId route request state').visible := by
    cases route with
    | health => rfl
    | filteredResponses segment =>
        simp only [respond]
        split
        · rfl
        · next formId named =>
            obtain ⟨free, form⟩ := Route.ofPath?_eq_filteredResponses_iff.1 path
            exact filteredResponses_congr fun wanted parsed =>
              agree formId wanted ⟨method, ⟨segment, free, form, named⟩, parsed⟩
  rcases server.handle_cases request with ⟨route, method, path, handled⟩ | ⟨answer, handled⟩
  · obtain ⟨answer, log⟩ := Prod.mk.inj (responded method route path)
    simp only [handled, Handled.visible, answer, log]
  · simp only [handled, Handled.visible]

end Agreement

/-! ## Recording -/

/-- The same outcome without what a source has recorded beside its state. -/
def Handled.unrecorded (handled : Handled (σ × τ) α) : Handled σ α :=
  ⟨handled.answer, handled.log, handled.state.1⟩

end Server

/-- The source, with a record of the fetches that it has been asked for. -/
def Source.recording (source : Source σ) : Source (σ × List (String × PageQuery)) where
  fetch formId query state :=
    ((source.fetch formId query state.1).1,
      ((source.fetch formId query state.1).2, state.2 ++ [(formId, query)]))

namespace Server

section Recording

variable {σ : Type} (server : Server) (source : Source σ) (requestId : String)
  (request : Request) (state : σ)

/-- The fetches that a request makes. -/
def fetches : List (String × PageQuery) :=
  (server.handle source.recording requestId request (state, [])).state.2

theorem filteredResponses_recording (formId : String) (seen : List (String × PageQuery)) :
    (server.filteredResponses source.recording requestId formId request (state, seen)).unrecorded =
      server.filteredResponses source requestId formId request state := by
  simp only [filteredResponses]
  split
  · rfl
  · next wanted parsed =>
      simp only [Source.recording]
      obtain ⟨result, after⟩ := source.fetch formId wanted.query state
      cases result <;> rfl

theorem respond_recording (route : Route) (seen : List (String × PageQuery)) :
    (server.respond source.recording requestId route request (state, seen)).unrecorded =
      server.respond source requestId route request state := by
  cases route with
  | health => rfl
  | filteredResponses segment =>
      simp only [respond]
      split
      · rfl
      · exact filteredResponses_recording server source requestId request state _ seen

/-- Recording is not seen in the answer, in the log or in the source. -/
theorem handle_recording (seen : List (String × PageQuery)) :
    (server.handle source.recording requestId request (state, seen)).unrecorded =
      server.handle source requestId request state := by
  rcases server.handle_cases request with ⟨route, method, path, handled⟩ | ⟨answer, handled⟩
  · have responded := respond_recording server source requestId request state route seen
    simp only [handled, ← responded, Handled.unrecorded]
  · simp only [handled, Handled.unrecorded]

theorem fetches_of_accepts {request : Request} {formId : String} {wanted : FilterRequest}
    (h : server.Accepts request formId wanted) :
    server.fetches source requestId request state = [(formId, wanted.query)] := by
  rw [fetches, (handle_of_accepts server source.recording requestId (state, []) h).1]
  rfl

theorem fetches_of_not_accepted {request : Request} (h : server.accepted? request = none) :
    server.fetches source requestId request state = [] := by
  rw [fetches, handle_of_not_accepted server source.recording requestId (state, []) h]

/-- A request reaches the source if it is acceptable, and not otherwise. -/
theorem fetches_ne_nil_iff :
    server.fetches source requestId request state ≠ [] ↔
      ∃ formId wanted, server.Accepts request formId wanted := by
  constructor
  · intro reached
    cases h : server.accepted? request with
    | none => exact absurd (fetches_of_not_accepted server source requestId state h) reached
    | some accepted => exact ⟨accepted.1, accepted.2, accepted?_eq_some_iff.1 h⟩
  · rintro ⟨formId, wanted, h⟩
    rw [fetches_of_accepts server source requestId state h]
    simp

end Recording

end Server

end FormSieve
