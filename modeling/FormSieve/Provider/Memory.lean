import FormSieve.Provider.Source

/-!
# Pages held in memory

A source over pages that are there already. It remembers the last fetch, whether or not there
was a page to hand out.
-/

namespace FormSieve

structure Memory where
  /-- The page of each form; of two pages the earlier one in the list counts. -/
  pages : List (String × Page) := []
  /-- The form and the query of the last fetch. -/
  lastRequest : Option (String × PageQuery) := none

namespace Memory

def empty : Memory := {}

/-- Gives a form a page, in the place of an earlier one. -/
def insert (m : Memory) (formId : String) (page : Page) : Memory :=
  { m with pages := (formId, page) :: m.pages.filter (·.1 ≠ formId) }

def find? (m : Memory) (formId : String) : Option Page :=
  (m.pages.find? (·.1 = formId)).map (·.2)

theorem find?_insert (m : Memory) (formId other : String) (page : Page) :
    (m.insert formId page).find? other =
      if other = formId then some page else m.find? other := by
  by_cases same : other = formId
  · subst same
    simp [insert, find?]
  · have sought : (fun p : String × Page => decide (p.1 ≠ formId) && decide (p.1 = other)) =
        fun p => decide (p.1 = other) := by
      funext p
      by_cases h : p.1 = other <;> simp_all
    simp only [Bool.decide_and, ne_eq, decide_not, insert, find?, List.find?_cons, same,
      Ne.symm same, decide_false, List.find?_filter, if_false]
    simp_all

/-- The failure for a form without a page. -/
def notFound : Failure :=
  .status 404 "\x7b\"message\":\"Form not found\"\x7d" (some "application/json")

def source : Source Memory where
  fetch formId query m :=
    (match m.find? formId with
      | some page => .ok page
      | none => .error notFound,
      { m with lastRequest := some (formId, query) })

end Memory

end FormSieve
