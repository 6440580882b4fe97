import FormSieve.Proofs.Submission.PageLimit
import FormSieve.Server.FilterRequest

/-!
# What requests for filtered pages ask for

A request that gives filters for a named form is judged by its filters first and then by its limit.
What it passes on is decided by the names of its parameters alone.
-/

namespace FormSieve

namespace FilterRequest

variable {formId : String} {params : List (String × String)} {authorization : Option String}
  {standard : PageLimit}

/-- Of several filters, the first counts. -/
theorem ofParam_of_head {texts : List String} {text : String} (first : texts.head? = some text) :
    ∃ param, FilterParam.ofOccurrences texts = some param ∧
      FilterSet.ofParam param = FilterSet.ofParam (.single text) := by
  obtain ⟨more, rfl⟩ := List.head?_eq_some_iff.1 first
  cases more with
  | nil => exact ⟨.single text, rfl, rfl⟩
  | cons next more => exact ⟨.repeated (text :: next :: more), rfl, rfl⟩

/-- Leaving out the filters leaves all parameters of another name. -/
theorem filter_other {name : String} (other : name ≠ filtersParam) :
    (params.filter (·.1 ≠ filtersParam)).filter (·.1 = name) = params.filter (·.1 = name) := by
  rw [List.filter_filter]
  refine List.filter_congr fun pair _ => ?_
  by_cases same : pair.1 = name
  · simp [same, other]
  · simp [same]

theorem occurrences_filter {name : String} (other : name ≠ filtersParam) :
    occurrences name (params.filter (·.1 ≠ filtersParam)) = occurrences name params := by
  rw [occurrences, occurrences, filter_other other]

/-- A limit that is written as a decimal number is taken. -/
theorem limitOf_of_head {limit : PageLimit}
    (first : (occurrences limitParam params).head? = some limit.value.toNat.repr) :
    limitOf standard params = .ok limit := by
  rw [limitOf, first]
  simp only [PageLimit.parse_repr]

/-- Of a request with filters for a named form, the filters are judged first and then the limit. -/
theorem parse_of_given {param : FilterParam}
    (given : FilterParam.ofOccurrences (occurrences filtersParam params) = some param)
    (named : Text.isBlank formId = false) :
    parse formId params authorization standard =
      match FilterSet.ofParam param, limitOf standard (params.filter (·.1 ≠ filtersParam)) with
      | .error rejection, _ => .error rejection
      | .ok _, .error rejection => .error rejection
      | .ok filters, .ok limit =>
        .ok ⟨filters, limit, ⟨params.filter (·.1 ≠ filtersParam), authorization⟩⟩ := by
  rw [parse, given]
  simp only [named, Bool.false_eq_true, if_false]
  cases FilterSet.ofParam param with
  | error rejection => rfl
  | ok filters => cases limitOf standard (params.filter (·.1 ≠ filtersParam)) <;> rfl

/-- What is asked for, where the filters and the limit are given as they should be. -/
theorem parse_eq_ok_iff {wanted : FilterRequest} :
    parse formId params authorization standard = .ok wanted ↔
      ∃ param, FilterParam.ofOccurrences (occurrences filtersParam params) = some param ∧
        Text.isBlank formId = false ∧ FilterSet.ofParam param = .ok wanted.filters ∧
        limitOf standard (params.filter (·.1 ≠ filtersParam)) = .ok wanted.limit ∧
        wanted.query = ⟨params.filter (·.1 ≠ filtersParam), authorization⟩ := by
  cases given : FilterParam.ofOccurrences (occurrences filtersParam params) with
  | none => simp [parse, given]
  | some param =>
      cases named : Text.isBlank formId with
      | true => simp [parse, given, named]
      | false =>
          rw [parse_of_given given named]
          constructor
          · intro h
            split at h
            · exact nomatch h
            · exact nomatch h
            · next filters limit valid limited =>
                obtain rfl := Except.ok.inj h
                exact ⟨param, rfl, rfl, valid, limited, rfl⟩
          · rintro ⟨_, ⟨rfl⟩, -, valid, limited, query⟩
            rw [valid, limited, ← query]

/-- All but the filters is passed on. -/
theorem query_of_parse {wanted : FilterRequest}
    (h : parse formId params authorization standard = .ok wanted) :
    wanted.query = ⟨params.filter (·.1 ≠ filtersParam), authorization⟩ := by
  obtain ⟨param, -, -, -, -, passedOn⟩ := parse_eq_ok_iff.1 h
  exact passedOn

end FilterRequest

end FormSieve
