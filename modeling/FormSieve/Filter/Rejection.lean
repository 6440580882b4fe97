/-!
# Rejections

Why the filters or the limit of a request are not acted upon. A client is told less about a bad
clause than a log is.
-/

namespace FormSieve

/-- What is wrong with a clause. The first fault in this order counts. -/
inductive ClauseFlaw where
  | notAnObject
  | unknownComparator
  | badId
  | badTarget
deriving DecidableEq, Repr

def ClauseFlaw.reason : ClauseFlaw → String
  | notAnObject => "clause must be an object"
  | unknownComparator => "unrecognized condition"
  | badId => "id must be non-empty text"
  | badTarget => "value must be non-empty text or a nonzero number"

inductive Rejection where
  /-- There are no filters, or no form they could be for. -/
  | missing
  /-- The filters are not JSON. -/
  | malformed (fault : String)
  /-- The filters are not a list. -/
  | notAnArray
  /-- The clause at `index` is no clause. -/
  | invalidClause (index : Nat) (flaw : ClauseFlaw)
  /-- The limit is not a positive number of 64 bits. -/
  | invalidLimit (given : String)
deriving DecidableEq, Repr

namespace Rejection

/-- What a client is told. -/
def message : Rejection → String
  | missing => "Missing required inputs"
  | malformed fault => fault
  | notAnArray => "Invalid filters"
  | invalidClause _ _ => "Invalid filters"
  | invalidLimit given => "Invalid limit: " ++ given

/-- What is logged. -/
def detail : Rejection → String
  | invalidClause index flaw => "clause " ++ index.repr ++ ": " ++ flaw.reason
  | rejection => rejection.message

end Rejection

end FormSieve
