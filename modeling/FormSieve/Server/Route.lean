import FormSieve.Http.Request
import FormSieve.Text.Percent

/-!
# Routes

The paths that the server knows. A path is compared as it is given, and only the segment that
names a form is decoded afterwards.
-/

namespace FormSieve

inductive Route where
  | health
  /-- The filtered submissions of a form, named by a segment that may be empty. -/
  | filteredResponses (segment : Bytes)
deriving DecidableEq, Repr

namespace Route

def healthPath : Bytes := Text.bytes "/health"

/-- What stands in front of the name of a form. -/
def formsPath : Bytes := Text.bytes "/api/forms/"

/-- What stands behind the name of a form. -/
def actionPath : Bytes := Text.bytes "/filteredResponses"

/-- The rest of a path behind a given beginning. -/
def behind? : Bytes → Bytes → Option Bytes
  | [], path => some path
  | _ :: _, [] => none
  | a :: as, b :: bs => if a = b then behind? as bs else none

def ofPath? (path : Bytes) : Option Route :=
  if path = healthPath then some health
  else
    match behind? formsPath path with
    | none => none
    | some rest =>
      if rest.dropWhile (· ≠ Ascii.slash) = actionPath then
        some (filteredResponses (rest.takeWhile (· ≠ Ascii.slash)))
      else none

/-- The name of a form, if its segment decodes to text. -/
def formId? (segment : Bytes) : Option String := Text.ofBytes? (Percent.decode segment)

end Route

end FormSieve
