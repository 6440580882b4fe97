import FormSieve.Filter.Rejection
import FormSieve.Http.Header
import FormSieve.Json.Printer
import FormSieve.Provider.Failure

/-!
# What a route answers

A route answers with a status and some content. A request that is rejected is told why. If the
provider refuses, its own status and words are passed on; any other trouble with the provider
is reported without saying what it was.
-/

namespace FormSieve

/-- The status and the content of an answer. -/
structure Content where
  status : UInt16
  contentType : Option String
  body : String
deriving DecidableEq, Repr

namespace Content

/-- No content. -/
def empty (status : UInt16) : Content := ⟨status, none, ""⟩

def plain (status : UInt16) (body : String) : Content :=
  ⟨status, some "text/plain; charset=utf-8", body⟩

/-- A JSON document. -/
def json (status : UInt16) (document : String) : Content :=
  ⟨status, some "application/json", document⟩

end Content

/-- Why a request is not answered with a page. -/
inductive Denial where
  | badRequest (reason : String)
  /-- The provider refused. -/
  | passedOn (code : UInt16) (body : String) (contentType : Option String)
  | fetchFailed (reason : String)
deriving DecidableEq, Repr

namespace Denial

def ofRejection (rejection : Rejection) : Denial := badRequest rejection.message

def ofFailure : Failure → Denial
  | .status code body contentType => passedOn code body contentType
  | failure => fetchFailed failure.message

/-- What the caller is told. The reason of a failed fetch is left out. -/
def message : Denial → String
  | badRequest reason => "Bad Request: " ++ reason
  | passedOn code _ _ => "Upstream returned status " ++ code.toNat.repr
  | fetchFailed _ => "Error fetching data"

/-- A provider's status that cannot be sent is replaced by 502. -/
def status : Denial → UInt16
  | badRequest _ => 400
  | passedOn code _ _ => if 100 ≤ code ∧ code ≤ 999 then code else 502
  | fetchFailed _ => 500

def content (denial : Denial) : Content :=
  match denial with
  | passedOn _ body contentType =>
    let contentType := contentType.getD "application/json"
    if Http.isHeaderValue (Text.bytes contentType) then ⟨denial.status, some contentType, body⟩
    else .plain 500 "failed to parse header value"
  | _ => .json denial.status (Json.printRecord [("message", Json.printText denial.message)])

end Denial

end FormSieve
