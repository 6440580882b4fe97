/-!
# Failures of the provider

Why a page could not be had from the provider of submissions.
-/

namespace FormSieve

inductive Failure where
  /-- The provider refused; what it said is passed on. -/
  | status (code : UInt16) (body : String) (contentType : Option String)
  /-- There was no reply. -/
  | incomplete (detail : String)
  /-- The reply is no page of submissions. -/
  | unreadable (detail : String)
  /-- No request can be made at all. -/
  | misconfigured (detail : String)
deriving DecidableEq, Repr

namespace Failure

def message : Failure → String
  | status code _ _ => "Upstream returned status " ++ code.toNat.repr
  | incomplete detail => "Transport error: " ++ detail
  | unreadable detail => "Invalid upstream response: " ++ detail
  | misconfigured detail => "Upstream configuration error: " ++ detail

end Failure

end FormSieve
