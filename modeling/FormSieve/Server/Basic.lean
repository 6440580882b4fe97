import FormSieve.Filter.Matching
import FormSieve.Log
import FormSieve.Provider.Remote
import FormSieve.Server.Config
import FormSieve.Server.Denial
import FormSieve.Server.FilterRequest
import FormSieve.Server.Origins
import FormSieve.Server.Route

/-!
# The server

The server answers requests for the filtered submissions of a form: it asks its source for a
page, drops what the filters do not admit, and corrects the counts. Requests that are not
acceptable never reach the source. Every request that reaches the route is logged by one line.
-/

namespace FormSieve

open Http

/-- Why there is no server for a configuration. -/
inductive SetupFault where
  | config (fault : ConfigFault)
  /-- The wildcard is on the list of origins. -/
  | wildcardOrigin
deriving DecidableEq, Repr

def SetupFault.message : SetupFault → String
  | config fault => fault.message
  | wildcardOrigin =>
    "Wildcard origin (`*`) cannot be passed to `AllowOrigin::list`. " ++
      "Use `AllowOrigin::any()` instead"

structure Server where
  config : Config
  /-- The page limit of requests that give none. -/
  limit : PageLimit
  origins : Origins

namespace Server

/-- The server of a configuration. -/
def ofConfig (config : Config) : Except SetupFault Server :=
  match config.pageLimit with
  | .error fault => .error (.config fault)
  | .ok limit =>
    match Origins.ofList? config.origins with
    | none => .error .wildcardOrigin
    | some origins => .ok ⟨config, limit, origins⟩

/-- The server of a configuration, and how it reaches the provider. -/
def ofConfigAndEnvironment (config : Config) (environment : Option String) :
    Except SetupFault (Server × Remote) :=
  match config.resolveBase environment with
  | .error fault => .error (.config fault)
  | .ok base =>
    match Remote.ofBase? base config.trusting with
    | .error failure => .error (.config (.provider failure))
    | .ok remote => (ofConfig config).map (·, remote)

/-- An answer with the lines it is logged by and the state of the source after it. -/
structure Handled (σ α : Type) where
  answer : α
  log : List LogLine
  state : σ

/-! ## The route -/

/-- The fields that are logged when filters have been applied. -/
def appliedFields (request : FilterRequest) (page filtered : Page) : List (String × String) :=
  [("clauses", request.filters.length.repr), ("original", page.responses.length.repr),
    ("matched", filtered.responses.length.repr),
    ("total_responses", filtered.totalResponses.toNat.repr),
    ("page_count", filtered.pageCount.toNat.repr)]

/-- Answers a request for the filtered submissions of a form. -/
def filteredResponses (server : Server) (source : Source σ) (requestId formId : String)
    (request : Request) (state : σ) : Handled σ Content :=
  let context : RequestContext := ⟨requestId, formId⟩
  let params := Form.decode (request.target.query.getD [])
  match FilterRequest.parse formId params (FilterRequest.authorization request) server.limit with
  | .error rejection =>
    ⟨(Denial.ofRejection rejection).content,
      [context.line .warning "FILTERS_REJECTED" [("reason", rejection.detail)]], state⟩
  | .ok wanted =>
    match source.fetch formId wanted.query state with
    | (.error failure, state) =>
      ⟨(Denial.ofFailure failure).content,
        [context.line .error "UPSTREAM_FAILED" [("error", failure.message)]], state⟩
    | (.ok page, state) =>
      let filtered := wanted.filters.apply page wanted.limit
      ⟨.json 200 filtered.print,
        [context.line .info "FILTERS_APPLIED" (appliedFields wanted page filtered)], state⟩

/-! ## Requests -/

/-- The document that says that the server is up. -/
def healthDocument : String := Json.printRecord [("status", Json.printText "ok")]

/-- Answers a request to a route. -/
def respond (server : Server) (source : Source σ) (requestId : String) (route : Route)
    (request : Request) (state : σ) : Handled σ Content :=
  match route with
  | .health => ⟨.json 200 healthDocument, [], state⟩
  | .filteredResponses segment =>
    match Route.formId? segment with
    | none => ⟨.plain 400 "Invalid URL: Invalid UTF-8 in `form_id`", [], state⟩
    | some formId => server.filteredResponses source requestId formId request state

/-- The methods that routes know. -/
def allowedMethods : String := "GET,HEAD"

/-- The answer as it is sent. An answer to `HEAD` has all but the content. -/
def reply (server : Server) (request : Request) (route : Option Route) (content : Content) :
    Reply where
  status := content.status
  headers :=
    (if request.method = .options then
        [("access-control-allow-headers", "*"), ("access-control-allow-methods", "*")]
      else []) ++
    ((server.origins.allowed request).toList.map fun o => ("access-control-allow-origin", o)) ++
    (match route, request.method with
      | some _, .options | some _, .other _ => [("allow", allowedMethods)]
      | _, _ => []) ++
    ("content-length", (Text.bytes content.body).length.repr) ::
    ((content.contentType.toList.map fun t => ("content-type", t)) ++
      [("vary", "origin, access-control-request-method, access-control-request-headers")])
  body := if request.method = .head then "" else content.body

/-- Answers a request. `requestId` tells it apart from others in the log. -/
def handle (server : Server) (source : Source σ) (requestId : String) (request : Request)
    (state : σ) : Handled σ Reply :=
  let route := Route.ofPath? request.target.path
  let handled : Handled σ Content :=
    match request.method, route with
    | .options, _ => ⟨.empty 200, [], state⟩
    | _, none => ⟨.empty 404, [], state⟩
    | .other _, some _ => ⟨.empty 405, [], state⟩
    | _, some route => server.respond source requestId route request state
  ⟨server.reply request route handled.answer, handled.log, handled.state⟩

end Server

end FormSieve
