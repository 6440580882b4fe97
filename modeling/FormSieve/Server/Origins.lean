import FormSieve.Http.Request

/-!
# Origins

Which pages on the web may read the answers. Without a list any page may; with one, the origin
of a request is repeated in the answer if it is on the list, byte for byte. Entries that cannot
be header values are never matched, and the list does not become empty by that.
-/

namespace FormSieve

open Http

inductive Origins where
  | any
  | listed (entries : List Bytes)
deriving DecidableEq, Repr

namespace Origins

/-- The entry that would stand for any origin, which a list must not have. -/
def wildcard : String := "*"

/-- The origins of a list; none if it has the wildcard. -/
def ofList? (entries : List String) : Option Origins :=
  if entries.isEmpty then some any
  else if entries.contains wildcard then none
  else some (listed ((entries.map Text.bytes).filter isHeaderValue))

/-- What an answer to a request says about the origin. -/
def allowed (origins : Origins) (request : Request) : Option String :=
  match origins with
  | any => some wildcard
  | listed entries =>
    match (request.valuesOf "origin").head? with
    | some origin => if entries.contains origin then Text.ofBytes? origin else none
    | none => none

end Origins

end FormSieve
