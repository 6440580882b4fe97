import FormSieve.Proofs.Http.Header
import FormSieve.Proofs.Server.FilterRequest
import FormSieve.Proofs.Text.Blank
import FormSieve.Proofs.Text.Form

/-!
# Which fault of a request is reported

Several things may be wrong with a request for a filtered page, and it is rejected for one of them:
for missing filters or a blank form before anything is read, then for the first filters, and only
then for the first limit. Filters that are given later are of no account, whatever they are.

What an acceptable request passes on is decided apart from that: all parameters but the filters,
and those values of the caller's authorization that are text.
-/

namespace FormSieve

namespace FilterRequest

/-! ## What the caller is authorized by -/

/-- The values of the caller's authorization that are plain text, in order. -/
def plainValues (request : Http.Request) : List Bytes :=
  (request.valuesOf "authorization").filter (·.all Http.isPlainByte)

/-- Plain values with commas between them are plain. -/
theorem isHeaderValue_intercalate {values : List Bytes}
    (plain : ∀ value ∈ values, value.all Http.isPlainByte = true) :
    Http.isHeaderValue ((Text.bytes ", ").intercalate values) = true := by
  have between : (Text.bytes ", ").all Http.isPlainByte = true := by decide
  refine List.all_eq_true.2 fun b member => Http.isValueByte_of_isPlainByte ?_
  rcases mem_of_mem_intercalate member with mark | ⟨value, given, inside⟩
  · exact List.all_eq_true.1 between b mark
  · exact List.all_eq_true.1 (plain value given) b inside

theorem authorization_of_no_plainValues {request : Http.Request}
    (unplain : plainValues request = []) : authorization request = none := by
  rw [plainValues, ← Http.map_bytes_filterMap_plainText?, List.map_eq_nil_iff] at unplain
  rw [authorization, unplain]

theorem exists_authorization {request : Http.Request} (given : plainValues request ≠ []) :
    ∃ joined, authorization request = some joined ∧
      Text.bytes joined = (Text.bytes ", ").intercalate (plainValues request) := by
  have texts := Http.map_bytes_filterMap_plainText? (request.valuesOf "authorization")
  rw [authorization]
  cases read : (request.valuesOf "authorization").filterMap Http.plainText? with
  | nil =>
      rw [read] at texts
      exact absurd texts.symm given
  | cons first more =>
      refine ⟨_, rfl, ?_⟩
      rw [Text.bytes_intercalate, ← read, texts, plainValues]

/-! ## Faults in order -/

section Faults

variable {formId text : String} {params : List (String × String)} {authorization : Option String}
  {standard : PageLimit}

theorem head?_occurrences (name : String) (params : List (String × String)) :
    (occurrences name params).head? = (params.find? (·.1 = name)).map (·.2) := by
  rw [occurrences, List.head?_map, List.head?_filter]

/-- Without filters, or for a blank form, nothing else is looked at. -/
theorem parse_of_missing
    (h : (∀ pair ∈ params, pair.1 ≠ filtersParam) ∨ Text.isBlank formId = true) :
    parse formId params authorization standard = .error .missing := by
  rw [parse]
  cases given : FilterParam.ofOccurrences (occurrences filtersParam params) with
  | none => rfl
  | some param =>
      have blank : Text.isBlank formId = true := by
        refine h.resolve_left fun unnamed => ?_
        have unfiltered : params.filter (·.1 = filtersParam) = [] := by
          rw [List.filter_eq_nil_iff]
          intro pair member same
          exact unnamed pair member (by simpa using same)
        rw [occurrences, unfiltered, List.map_nil] at given
        cases given
      exact if_pos blank

/-- The limit is looked for among all parameters: the filters are none of its occurrences. -/
theorem limitOf_filter : limitOf standard (params.filter (·.1 ≠ filtersParam)) =
    limitOf standard params := by
  have other : limitParam ≠ filtersParam := by decide
  rw [limitOf, limitOf, occurrences_filter other]

/-- A request for a named form is judged by its first filters and then by its first limit. -/
theorem parse_of_first (first : (occurrences filtersParam params).head? = some text)
    (named : Text.isBlank formId = false) :
    parse formId params authorization standard =
      match FilterSet.ofParam (.single text), limitOf standard params with
      | .error rejection, _ => .error rejection
      | .ok _, .error rejection => .error rejection
      | .ok filters, .ok limit =>
        .ok ⟨filters, limit, ⟨params.filter (·.1 ≠ filtersParam), authorization⟩⟩ := by
  obtain ⟨param, given, same⟩ := ofParam_of_head first
  have judged : parse formId params authorization standard = _ := parse_of_given given named
  rw [same, limitOf_filter] at judged
  exact judged

/-- Only the first filters and the other parameters count. -/
theorem parse_congr {params' : List (String × String)}
    (first : (occurrences filtersParam params).head? = some text)
    (first' : (occurrences filtersParam params').head? = some text)
    (others : params'.filter (·.1 ≠ filtersParam) = params.filter (·.1 ≠ filtersParam)) :
    parse formId params' authorization standard = parse formId params authorization standard := by
  cases named : Text.isBlank formId with
  | true => rw [parse_of_missing (.inr named), parse_of_missing (.inr named)]
  | false =>
      have limits : limitOf standard params' = limitOf standard params := by
        rw [← limitOf_filter, others, limitOf_filter]
      rw [parse_of_first first named, parse_of_first first' named, limits, others]

/-- The first filters are those behind which no others stand. -/
theorem head?_occurrences_of_split {before after : List (String × String)}
    (split : params = before ++ (filtersParam, text) :: after)
    (free : ∀ pair ∈ before, pair.1 ≠ filtersParam) :
    (occurrences filtersParam params).head? = some text := by
  have unfound : before.find? (·.1 = filtersParam) = none := by
    rw [List.find?_eq_none]
    intro pair member same
    exact free pair member (by simpa using same)
  rw [head?_occurrences, split, List.find?_append, unfound, Option.none_or, List.find?_cons_of_pos]
  · rfl
  · exact decide_eq_true rfl

theorem ofParam_single (given : text ≠ "") :
    FilterSet.ofParam (.single text) = FilterSet.ofText text :=
  if_neg (by simpa using given)

/-- Where the first filters are accepted, the first limit decides. -/
theorem parse_of_valid {filters : FilterSet}
    (first : (occurrences filtersParam params).head? = some text)
    (named : Text.isBlank formId = false) (valid : FilterSet.ofParam (.single text) = .ok filters) :
    match params.find? (·.1 = limitParam) with
    | none => ∃ wanted, parse formId params authorization standard = .ok wanted ∧
        wanted.filters = filters ∧ wanted.limit = standard
    | some (_, given) =>
      match PageLimit.parse given with
      | none => parse formId params authorization standard = .error (.invalidLimit given)
      | some limit => ∃ wanted, parse formId params authorization standard = .ok wanted ∧
          wanted.filters = filters ∧ wanted.limit = limit := by
  rw [parse_of_first first named, valid, limitOf, head?_occurrences]
  cases params.find? (·.1 = limitParam) with
  | none => exact ⟨_, rfl, rfl, rfl⟩
  | some pair =>
      obtain ⟨name, given⟩ := pair
      dsimp only [Option.map_some]
      cases PageLimit.parse given with
      | none => rfl
      | some limit => exact ⟨_, rfl, rfl, rfl⟩

end Faults

/-- A request without filters, or for a blank form, is rejected for that, whatever else is wrong
with it. Otherwise its first filters decide: empty ones are missing, and ones that are rejected are
rejected for their own fault, while filters that stand behind them may be changed, added or removed
at will. Only if they are accepted the first limit is read, and reported as it stands if it is none;
without one there is the standard limit. An acceptable request passes on all parameters but the
filters, in order and with all limits among them, and the plain values of its authorization joined
by commas, if there are any; what they are joined to may be sent as a header value. -/
theorem parse_faults_in_order (request : Http.Request) (formId : String)
    (params : List (String × String)) (standard : PageLimit) :
    let result params := parse formId params (authorization request) standard
    ((∀ pair ∈ params, pair.1 ≠ "filters") ∨ Text.trim formId = "" →
      result params = .error .missing) ∧
    (∀ before text after, params = before ++ ("filters", text) :: after →
      (∀ pair ∈ before, pair.1 ≠ "filters") → Text.trim formId ≠ "" →
      (text = "" → result params = .error .missing) ∧
      (∀ rejection, text ≠ "" → FilterSet.ofText text = .error rejection →
        result params = .error rejection) ∧
      (∀ later, later.filter (·.1 ≠ "filters") = after.filter (·.1 ≠ "filters") →
        result (before ++ ("filters", text) :: later) = result params) ∧
      ∀ filters, text ≠ "" → FilterSet.ofText text = .ok filters →
        match params.find? (·.1 = "limit") with
        | none => ∃ wanted, result params = .ok wanted ∧ wanted.filters = filters ∧
            wanted.limit = standard
        | some (_, given) =>
          match PageLimit.parse given with
          | none => result params = .error (.invalidLimit given)
          | some limit => ∃ wanted, result params = .ok wanted ∧ wanted.filters = filters ∧
              wanted.limit = limit) ∧
    ∀ wanted, result params = .ok wanted →
      wanted.query.params = params.filter (·.1 ≠ "filters") ∧
      wanted.query.params.filter (·.1 = "limit") = params.filter (·.1 = "limit") ∧
      (plainValues request = [] → wanted.query.authorization = none) ∧
      (plainValues request ≠ [] → ∃ joined, wanted.query.authorization = some joined ∧
        Text.bytes joined = (Text.bytes ", ").intercalate (plainValues request) ∧
        Http.isHeaderValue (Text.bytes joined) = true) := by
  intro result
  refine ⟨?_, ?_, ?_⟩
  · intro missing
    exact parse_of_missing (missing.imp_right Text.isBlank_iff.2)
  · intro before text after split free proper
    have first := head?_occurrences_of_split split free
    have named : Text.isBlank formId = false := by
      rw [← Bool.not_eq_true, Text.isBlank_iff]
      exact proper
    refine ⟨?_, ?_, ?_, ?_⟩
    · rintro rfl
      exact parse_of_first first named
    · intro rejection given invalid
      have rejected : result params = _ := parse_of_first first named
      rw [ofParam_single given, invalid] at rejected
      exact rejected
    · intro later others
      refine parse_congr first (head?_occurrences_of_split rfl free) ?_
      simp only [split, List.filter_append, List.filter_cons]
      exact congrArg (before.filter (·.1 ≠ filtersParam) ++ ·) others
    · intro filters given valid
      exact parse_of_valid first named ((ofParam_single given).trans valid)
  · intro wanted accepted
    have query := query_of_parse accepted
    have params' : wanted.query.params = params.filter (·.1 ≠ filtersParam) := by rw [query]
    have authorized : wanted.query.authorization = authorization request := by rw [query]
    refine ⟨params', ?_, ?_, ?_⟩
    · rw [params']
      exact filter_other (by decide)
    · intro unplain
      rw [authorized, authorization_of_no_plainValues unplain]
    · intro given
      obtain ⟨joined, found, bytes⟩ := exists_authorization given
      refine ⟨joined, authorized.trans found, bytes, ?_⟩
      rw [bytes]
      exact isHeaderValue_intercalate fun value member => (List.mem_filter.1 member).2

/-- A caller who authorizes itself twice, with a value that is no text in between. -/
def authorizedTwice : Http.Request where
  method := .get
  target := ⟨Text.bytes "/api/forms/f/filteredResponses", none⟩
  headers := ["Bearer a", "\xe4", "Bearer b"].map fun value =>
    ⟨Text.bytes "authorization", Text.bytes value⟩

/-- Several filters and limits, of which the first decide: a limit that is none, and one that is. -/
theorem parse_faults_in_order_of_repeated :
    let result params := parse "f" params (authorization authorizedTwice) .standard
    result [("limit", " 0"), ("filters", "[]"), ("limit", "5"), ("filters", "[")] =
        .error (.invalidLimit " 0") ∧
      ∃ wanted,
        result [("limit", "+7 "), ("filters", "[]"), ("limit", "0"), ("filters", "[")] =
            .ok wanted ∧
          wanted.limit.value = 7 ∧ wanted.query.params = [("limit", "+7 "), ("limit", "0")] ∧
          ∃ joined, wanted.query.authorization = some joined ∧
            Text.bytes joined = Text.bytes "Bearer a, Bearer b" := by
  intro result
  have free : ∀ pair ∈ [("limit", " 0")], pair.1 ≠ "filters" := by decide
  have free' : ∀ pair ∈ [("limit", "+7 ")], pair.1 ≠ "filters" := by decide
  have valid : FilterSet.ofText "[]" = .ok [] := rfl
  constructor
  · obtain ⟨-, judged, -⟩ := parse_faults_in_order authorizedTwice "f"
      [("limit", " 0"), ("filters", "[]"), ("limit", "5"), ("filters", "[")] .standard
    obtain ⟨-, -, -, limited⟩ := judged [("limit", " 0")] "[]" _ rfl free (by decide)
    exact limited [] (by decide) valid
  · obtain ⟨-, judged, passedOn⟩ := parse_faults_in_order authorizedTwice "f"
      [("limit", "+7 "), ("filters", "[]"), ("limit", "0"), ("filters", "[")] .standard
    obtain ⟨-, -, -, limited⟩ := judged [("limit", "+7 ")] "[]" _ rfl free' (by decide)
    obtain ⟨wanted, accepted, -, limit⟩ := limited [] (by decide) valid
    obtain ⟨params, -, -, authorized⟩ := passedOn wanted accepted
    obtain ⟨joined, found, bytes, -⟩ := authorized (by decide)
    refine ⟨wanted, accepted, ?_, params, joined, found, ?_⟩
    · rw [limit]
      decide
    · rw [bytes]
      decide

end FilterRequest

end FormSieve
