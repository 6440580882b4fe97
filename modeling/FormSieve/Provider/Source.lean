import FormSieve.Provider.Failure
import FormSieve.Submission.Page

/-!
# Sources of pages

A source hands out one page of the submissions of a form. What it remembers from one fetch to
the next is its state.
-/

namespace FormSieve

/-- What is passed on to the provider with the name of the form. -/
structure PageQuery where
  /-- The parameters other than the filters, in order. -/
  params : List (String × String)
  /-- The authorization of the caller, for the provider to check. -/
  authorization : Option String
deriving DecidableEq, Repr

structure Source (σ : Type) where
  fetch : String → PageQuery → σ → Except Failure Page × σ

/-- A source in which the next fetch fails, if a failure is set, after it has been made. -/
def Source.failingOnce (source : Source σ) : Source (σ × Option Failure) where
  fetch formId query state :=
    let (result, inner) := source.fetch formId query state.1
    match state.2 with
    | some failure => (.error failure, (inner, none))
    | none => (result, (inner, none))

end FormSieve
