import FormSieve.Filter.Validation
import FormSieve.Submission.Counts
import FormSieve.Submission.Page

/-!
# Matching

A filter admits a submission if, for every question that a clause asks about, the submission
has an answer, and all its answers satisfy all clauses about the question. The clauses are
first grouped by question, so that the answers to each are looked up once.
-/

namespace FormSieve

/-- The comparisons asked of the answers to one question, in order. -/
structure ClauseGroup where
  id : String
  /-- Each comparator with what it compares with. -/
  comparisons : List (Comparator × Target)

namespace ClauseGroup

/-- Adds a clause to the group of its question, which is opened if need be. -/
def insert (clause : Clause) : List ClauseGroup → List ClauseGroup
  | [] => [⟨clause.id, [(clause.comparator, clause.target)]⟩]
  | group :: groups =>
    if group.id = clause.id then
      ⟨group.id, group.comparisons ++ [(clause.comparator, clause.target)]⟩ :: groups
    else group :: insert clause groups

/-- Whether an answer with this value passes all comparisons of the group. -/
def accepts (group : ClauseGroup) (value : Json.Value) : Bool :=
  group.comparisons.all fun (comparator, target) => comparator.accepts (target.order value)

/-- Whether a submission answers the question, and each time acceptably. -/
def admits (group : ClauseGroup) (submission : Submission) : Bool :=
  let answers := submission.answersTo group.id
  !answers.isEmpty && answers.all fun answer => group.accepts answer.value

end ClauseGroup

namespace FilterSet

/-- The clauses grouped by question. -/
def groups (filters : FilterSet) : List ClauseGroup :=
  filters.foldl (fun groups clause => ClauseGroup.insert clause groups) []

/-- The number of questions asked about. -/
def questionCount (filters : FilterSet) : Nat := filters.groups.length

def admits (filters : FilterSet) (submission : Submission) : Bool :=
  filters.groups.all (·.admits submission)

/-- The admitted submissions of a page, with the counts that follow from what was dropped. -/
def apply (filters : FilterSet) (page : Page) (limit : PageLimit) : Page :=
  let kept := page.responses.filter filters.admits
  let counts := reconcile page.totalResponses page.responses.length kept.length limit
  ⟨kept, counts.totalResponses, counts.pageCount⟩

end FilterSet

/-- Filters a page as a request asks, or not at all if its filters are rejected. -/
def filterPage (param : FilterParam) (page : Page) (limit : PageLimit) : Except Rejection Page :=
  (FilterSet.ofParam param).map fun filters => filters.apply page limit

end FormSieve
