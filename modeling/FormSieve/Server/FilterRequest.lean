import FormSieve.Filter.Validation
import FormSieve.Http.Request
import FormSieve.Provider.Source
import FormSieve.Submission.PageLimit
import FormSieve.Text.Blank

/-!
# Requests for filtered pages

What a request for the filtered submissions of a form asks for. The filters are taken out of
its parameters; all others are passed on to the provider, the limit too. Only the first of
several filters and the first of several limits is looked at.
-/

namespace FormSieve

structure FilterRequest where
  filters : FilterSet
  limit : PageLimit
  query : PageQuery

namespace FilterRequest

def filtersParam : String := "filters"

def limitParam : String := "limit"

/-- The authorization of the caller: all values that are plain text, with commas between
them. -/
def authorization (request : Http.Request) : Option String :=
  match (request.valuesOf "authorization").filterMap Http.plainText? with
  | [] => none
  | values => some (", ".intercalate values)

/-- The values of a parameter, in order. -/
def occurrences (name : String) (params : List (String × String)) : List String :=
  (params.filter (·.1 = name)).map (·.2)

/-- The limit among the parameters. -/
def limitOf (standard : PageLimit) (params : List (String × String)) :
    Except Rejection PageLimit :=
  match (occurrences limitParam params).head? with
  | none => .ok standard
  | some text =>
    match PageLimit.parse text with
    | some limit => .ok limit
    | none => .error (.invalidLimit text)

/-- The form and the filters must be given; then the filters must be valid, and then the
limit. -/
def parse (formId : String) (params : List (String × String)) (authorization : Option String)
    (standard : PageLimit) : Except Rejection FilterRequest :=
  match FilterParam.ofOccurrences (occurrences filtersParam params) with
  | none => .error .missing
  | some param =>
    if Text.isBlank formId then .error .missing
    else do
      let filters ← FilterSet.ofParam param
      let forwarded := params.filter (·.1 ≠ filtersParam)
      let limit ← limitOf standard forwarded
      return ⟨filters, limit, ⟨forwarded, authorization⟩⟩

end FilterRequest

end FormSieve
