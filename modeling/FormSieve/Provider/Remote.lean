import FormSieve.Http.Header
import FormSieve.Http.Target
import FormSieve.Net.Url
import FormSieve.Provider.Source
import FormSieve.Provider.TextReader
import FormSieve.Text.Blank

/-!
# Pages of a remote provider

A source that asks the provider over the network. This module says what the client is given to
send and what is made of what it brings back. The client itself is a function that is given, so that
everything here can be reasoned about. What it does on its own is part of that function: it may
follow redirections, and then it makes more requests than the one it was given, and brings back the
last reply.
-/

namespace FormSieve

/-- A request to the provider, as the client is given it. -/
structure Outgoing where
  url : Url
  authorization : Option String
deriving DecidableEq, Repr

/-- What the client brings back. -/
inductive Outcome where
  /-- A reply. Its body is read after its head, and may break off; then there is none. -/
  | reply (status : UInt16) (contentType : Option Bytes) (body : Option Bytes)
  /-- The request could not be completed. -/
  | lost
  /-- The client gave up on its own, as where one redirection follows another, and says why. -/
  | stopped (reason : String)
deriving DecidableEq, Repr

/-- How the provider is reached. -/
structure Remote where
  /-- The address that the paths of the provider are appended to. -/
  base : String
  /-- Whether the provider is believed to be who it is without a valid certificate. -/
  trusting : Bool
  nonblank : Text.isBlank base = false

namespace Remote

/-- A blank base address is no address. -/
def ofBase? (base : String) (trusting : Bool) : Except Failure Remote :=
  if h : Text.isBlank base = false then .ok ⟨base, trusting, h⟩
  else .error (.misconfigured "upstream base URL is empty")

/-- Where the submissions of a form are. The name of the form is inserted as it is. -/
def submissionsUrl (remote : Remote) (formId : String) : String :=
  String.ofList (remote.base.toList.reverse.dropWhile (· = '/')).reverse ++ "/v1/api/forms/" ++
    formId ++ "/submissions"

/-- The failure of a request that cannot be made for a URL. -/
def noRequestFor (url : Url) : Failure :=
  .incomplete ("builder error for url (" ++ url.print ++ ")")

/-- Whether a URL can be requested: its scheme is one of the two for documents, and it is written
the way a request may name what it asks for, which also bounds its length. -/
def isRequestable (url : Url) : Bool :=
  (url.scheme = "http".toList || url.scheme = "https".toList) &&
    (Http.Target.parse? url.print).isSome

/-- The request for a page. -/
def outgoing (remote : Remote) (formId : String) (query : PageQuery) : Except Failure Outgoing :=
  match Url.parse? (remote.submissionsUrl formId) with
  | none => .error (.incomplete "builder error")
  | some url =>
    if !url.hasHost then .error (noRequestFor url)
    else
      let url := url.addPairs query.params
      if isRequestable url then .ok ⟨url, query.authorization⟩ else .error (noRequestFor url)

/-- The text of a refusal, or what stands for it if its body breaks off. -/
def refusalText (reader : TextReader) (contentType : Option Bytes) : Option Bytes → String
  | some body => reader.read contentType body
  | none => "Failed to read error response"

/-- What a request came to. -/
def conclude (reader : TextReader) (request : Outgoing) : Outcome → Except Failure Page
  | .lost =>
    .error (.incomplete ("error sending request for url (" ++ request.url.print ++ ")"))
  | .stopped reason => .error (.incomplete reason)
  | .reply status contentType body =>
    if 200 ≤ status ∧ status < 300 then
      match body.map (Json.decode Page.decoder) with
      | some (.ok page) => .ok page
      | some (.error _) | none => .error (.unreadable "error decoding response body")
    else
      .error (.status status (refusalText reader contentType body)
        (contentType.bind Http.plainText?))

/-- The source that exchanges requests for outcomes by `send`, and reads refusals by `reader`. -/
def source (remote : Remote) (send : Outgoing → σ → Outcome × σ)
    (reader : TextReader := .utf8) : Source σ where
  fetch formId query state :=
    match remote.outgoing formId query with
    | .error failure => (.error failure, state)
    | .ok request =>
      let (outcome, state) := send request state
      (conclude reader request outcome, state)

end Remote

end FormSieve
