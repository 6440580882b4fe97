import FormSieve.Proofs.Server.Routing
import FormSieve.Provider.Memory

/-!
# Servers over pages in memory

A run is any sequence of events: forms are given pages, and requests arrive. What the source
remembers, and how a request is answered, depends on the run so far only through the last page
that each form was given and the last fetch that was made.
-/

namespace FormSieve

open Http

/-- What happens to a server over pages in memory. -/
inductive Event where
  | insert (formId : String) (page : Page)
  | request (requestId : String) (request : Request)

/-- The page that an event gives a form. -/
def Event.pageFor? (formId : String) : Event → Option Page
  | .insert other page => if other = formId then some page else none
  | .request _ _ => none

/-- The last page that a form is given by some events. -/
def latestPage? (formId : String) (events : List Event) : Option Page :=
  (events.filterMap (Event.pageFor? formId)).getLast?

theorem latestPage?_append (formId : String) (events : List Event) (e : Event) :
    latestPage? formId (events ++ [e]) = (e.pageFor? formId).or (latestPage? formId events) := by
  cases h : e.pageFor? formId <;> simp [latestPage?, h]

/-- Only an insertion gives a page. -/
theorem Event.pageFor?_eq_some_iff {formId : String} {e : Event} {page : Page} :
    e.pageFor? formId = some page ↔ e = .insert formId page := by
  cases e with
  | insert other given => simp [pageFor?, eq_comm]
  | request requestId request => simp [pageFor?]

theorem insert_mem_of_latestPage? {formId : String} {events : List Event} {page : Page}
    (h : latestPage? formId events = some page) : Event.insert formId page ∈ events := by
  obtain ⟨e, member, given⟩ := List.mem_filterMap.1 (List.mem_of_getLast? h)
  rwa [← Event.pageFor?_eq_some_iff.1 given]

theorem insert_not_mem_of_latestPage? {formId : String} {events : List Event}
    (h : latestPage? formId events = none) (page : Page) :
    Event.insert formId page ∉ events := by
  intro member
  have absent := List.filterMap_eq_nil_iff.1 (List.getLast?_eq_none_iff.1 h) _ member
  exact nomatch absent.symm.trans (Event.pageFor?_eq_some_iff.2 rfl)

namespace Server

variable (server : Server)

/-- One event: the source after it, and the answer if it is a request. -/
def step (m : Memory) : Event → Memory × Option Reply
  | .insert formId page => (m.insert formId page, none)
  | .request requestId request =>
    let handled := server.handle Memory.source requestId request m
    (handled.state, some handled.answer)

/-- The source after some events. -/
def after (m : Memory) (events : List Event) : Memory :=
  events.foldl (fun m e => (server.step m e).1) m

/-- The answers to some events, in order. -/
def replies (m : Memory) : List Event → List (Option Reply)
  | [] => []
  | e :: events => (server.step m e).2 :: replies (server.step m e).1 events

/-- The fetches that an event makes. -/
def fetchesOf (m : Memory) : Event → List (String × PageQuery)
  | .insert _ _ => []
  | .request requestId request => server.fetches Memory.source requestId request m

/-- The fetches that some events make, in order. -/
def fetchesDuring (m : Memory) : List Event → List (String × PageQuery)
  | [] => []
  | e :: events => server.fetchesOf m e ++ fetchesDuring (server.step m e).1 events

theorem replies_append (m : Memory) (events more : List Event) :
    server.replies m (events ++ more) =
      server.replies m events ++ server.replies (server.after m events) more := by
  induction events generalizing m with
  | nil => rfl
  | cons e events ih => simp [replies, after, ih]

theorem length_replies (m : Memory) (events : List Event) :
    (server.replies m events).length = events.length := by
  induction events generalizing m with
  | nil => rfl
  | cons e events ih => simp [replies, ih]

/-! ## What the source remembers -/

/-- The source remembers of a run the last page of each form and the last fetch. -/
structure Remembers (events : List Event) (fetched : List (String × PageQuery)) (m : Memory) :
    Prop where
  page : ∀ formId, m.find? formId = latestPage? formId events
  lastRequest : m.lastRequest = fetched.getLast?

theorem remembers_empty : Remembers [] [] Memory.empty := ⟨fun _ => rfl, rfl⟩

/-- One event more. -/
theorem Remembers.step {events : List Event} {fetched : List (String × PageQuery)} {m : Memory}
    (h : Remembers events fetched m) (e : Event) :
    Remembers (events ++ [e]) (fetched ++ server.fetchesOf m e) (server.step m e).1 := by
  cases e with
  | insert formId page =>
      refine ⟨fun other => ?_, ?_⟩
      · rw [latestPage?_append, ← h.page]
        simp only [Server.step, Memory.find?_insert, Event.pageFor?, eq_comm (a := other)]
        split <;> rfl
      · simpa [Server.step, fetchesOf, Memory.insert] using h.lastRequest
  | request requestId request =>
      have pages : ∀ formId, latestPage? formId (events ++ [.request requestId request]) =
          latestPage? formId events := by
        intro formId
        rw [latestPage?_append]
        rfl
      cases accepted : server.accepted? request with
      | none =>
          simp only [Server.step, fetchesOf,
            handle_of_not_accepted server Memory.source requestId m accepted,
            fetches_of_not_accepted server Memory.source requestId m accepted, List.append_nil]
          exact ⟨fun formId => (h.page formId).trans (pages formId).symm, h.lastRequest⟩
      | some found =>
          have accepts := accepted?_eq_some_iff.1 accepted
          simp only [Server.step, fetchesOf,
            (handle_of_accepts server Memory.source requestId m accepts).1,
            fetches_of_accepts server Memory.source requestId m accepts]
          refine ⟨fun formId => (h.page formId).trans (pages formId).symm, ?_⟩
          simp [Memory.source]

/-- Any number of events more. -/
theorem Remembers.after {events : List Event} {fetched : List (String × PageQuery)} {m : Memory}
    (h : Remembers events fetched m) (more : List Event) :
    Remembers (events ++ more) (fetched ++ server.fetchesDuring m more) (server.after m more) := by
  induction more generalizing events fetched m with
  | nil => simpa [fetchesDuring, Server.after] using h
  | cons e more ih => simpa [fetchesDuring, Server.after] using ih (h.step server e)

theorem remembers_after (events : List Event) :
    Remembers events (server.fetchesDuring .empty events) (server.after .empty events) := by
  simpa using remembers_empty.after server events

/-! ## How requests are answered -/

/-- What is answered for a form without a page. -/
def notFoundDocument : String := Json.printRecord [("message", Json.printText "Form not found")]

theorem content_notFound :
    (Denial.ofFailure Memory.notFound).content =
      ⟨404, some "application/json", notFoundDocument⟩ := by
  decide

section Replies

variable {server : Server} {requestId : String} {request : Request} {m : Memory}
  {formId : String} {wanted : FilterRequest}

/-- The form has a page: the answer is that page, filtered as the request asks. -/
theorem answer_of_page {page : Page} (h : server.Accepts request formId wanted)
    (found : m.find? formId = some page) :
    (server.handle Memory.source requestId request m).answer =
      server.reply request (Route.ofPath? request.target.path)
        (.json 200 (wanted.filters.apply page wanted.limit).print) := by
  rw [(handle_of_accepts server Memory.source requestId m h).2]
  simp [Memory.source, found, contentOf]

/-- The form has no page: the answer says so. -/
theorem answer_of_no_page (h : server.Accepts request formId wanted)
    (missing : m.find? formId = none) :
    (server.handle Memory.source requestId request m).answer =
      server.reply request (Route.ofPath? request.target.path)
        ⟨404, some "application/json", notFoundDocument⟩ := by
  rw [(handle_of_accepts server Memory.source requestId m h).2, ← content_notFound]
  simp [Memory.source, missing, contentOf]

/-- The answer to a request of a run is the one in the state that the events before it left. -/
theorem replies_of_request (before later : List Event) :
    (server.replies m (before ++ .request requestId request :: later))[before.length]? =
      some (some
        (server.handle Memory.source requestId request (server.after m before)).answer) := by
  rw [replies_append, List.getElem?_append_right (Nat.le_of_eq (length_replies ..)), length_replies]
  simp [replies, step]

@[simp] theorem status_reply (route : Option Route) (content : Content) :
    (server.reply request route content).status = content.status := rfl

theorem body_reply_of_get (route : Option Route) (content : Content)
    (get : request.method = .get) : (server.reply request route content).body = content.body := by
  simp [reply, get]

theorem contentType_mem_reply (route : Option Route) (status : UInt16) (contentType body : String) :
    ("content-type", contentType) ∈
      (server.reply request route ⟨status, some contentType, body⟩).headers := by
  simp [reply]

end Replies

/-- In any run over pages in memory, a request makes a fetch exactly if it is acceptable, and any
other request leaves the source as it was. The source remembers the last fetch of the run. An
acceptable request is answered with status 200 exactly if its form was given a page before; the
answer is then the last of these pages, filtered as the request asks, and otherwise it says that
there is no such form. -/
theorem memory_history :
    (∀ events, (server.after .empty events).lastRequest =
        (server.fetchesDuring .empty events).getLast?) ∧
      ∀ before requestId request later,
        (server.fetches Memory.source requestId request (server.after .empty before) ≠ [] ↔
          ∃ formId wanted, server.Accepts request formId wanted) ∧
        ((¬∃ formId wanted, server.Accepts request formId wanted) →
          (server.step (server.after .empty before) (.request requestId request)).1 =
            server.after .empty before) ∧
        ∃ answer,
          (server.replies .empty (before ++ .request requestId request :: later))[before.length]? =
            some (some answer) ∧
          ∀ formId wanted, server.Accepts request formId wanted →
            server.fetches Memory.source requestId request (server.after .empty before) =
              [(formId, wanted.query)] ∧
            (answer.status = 200 ↔ ∃ page, Event.insert formId page ∈ before) ∧
            match latestPage? formId before with
            | some page =>
              request.method = .get →
                answer.body = (wanted.filters.apply page wanted.limit).print
            | none =>
              answer.status = 404 ∧ ("content-type", "application/json") ∈ answer.headers ∧
                (request.method = .get → answer.body = notFoundDocument) := by
  refine ⟨fun events => (server.remembers_after events).lastRequest, ?_⟩
  intro before requestId request later
  have remembered := server.remembers_after before
  refine ⟨fetches_ne_nil_iff .., ?_, _, replies_of_request before later, ?_⟩
  · intro unacceptable
    refine handle_of_not_accepted server Memory.source requestId _ ?_
    refine Option.eq_none_iff_forall_ne_some.2 fun found accepted => unacceptable ?_
    exact ⟨found.1, found.2, accepted?_eq_some_iff.1 accepted⟩
  · intro formId wanted accepts
    refine ⟨fetches_of_accepts server Memory.source requestId _ accepts, ?_⟩
    cases given : latestPage? formId before with
    | some page =>
        rw [answer_of_page accepts ((remembered.page formId).trans given)]
        have inserted := insert_mem_of_latestPage? given
        exact ⟨iff_of_true rfl ⟨page, inserted⟩, body_reply_of_get _ _⟩
    | none =>
        rw [answer_of_no_page accepts ((remembered.page formId).trans given)]
        refine ⟨iff_of_false ?_ ?_, rfl, contentType_mem_reply .., body_reply_of_get _ _⟩
        · simp
        · rintro ⟨page, inserted⟩
          exact insert_not_mem_of_latestPage? given page inserted

end Server

end FormSieve
