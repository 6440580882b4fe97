import FormSieve.Http.Header
import FormSieve.Http.Target

/-!
# Requests and replies

Requests have no body here, and replies have text for one.
-/

namespace FormSieve.Http

inductive Method where
  | get
  | head
  | options
  | other (name : Bytes)
deriving DecidableEq, Repr

/-- A method is a token; case matters. -/
def Method.parse? (s : String) : Option Method :=
  if s = "GET" then some .get
  else if s = "HEAD" then some .head
  else if s = "OPTIONS" then some .options
  else if isToken (Text.bytes s) then some (.other (Text.bytes s))
  else none

structure Request where
  method : Method
  target : Target
  headers : List Header
deriving DecidableEq, Repr

namespace Request

/-- The request of given texts, if they can make one up. -/
def ofTexts? (method target : String) (headers : List (String × String)) : Option Request := do
  let method ← Method.parse? method
  let target ← Target.parse? target
  let headers ← headers.mapM fun (name, value) => Header.ofTexts? name value
  return ⟨method, target, headers⟩

/-- All values of a header, in order. -/
def valuesOf (r : Request) (name : String) : List Bytes :=
  (r.headers.filter (·.name = Text.bytes name)).map (·.value)

end Request

structure Reply where
  status : UInt16
  /-- In the order of their names. -/
  headers : List (String × String)
  body : String
deriving DecidableEq, Repr

end FormSieve.Http
