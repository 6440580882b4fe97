import FormSieve.Submission.PageLimit

/-!
# Counts after filtering

Only one page is ever filtered. The total is reduced by what that page has lost, as if no other
page would lose anything, so it is exact when there is only one page and an upper bound
otherwise. The number of pages follows from the total and the limit.
-/

namespace FormSieve

/-- The counts that a filtered page announces. -/
structure PageCounts where
  totalResponses : UInt64
  pageCount : UInt64
deriving DecidableEq, Repr

/-- The number of pages for `n` submissions: one more than the full ones if some are left. -/
def PageLimit.pagesFor (limit : PageLimit) (n : UInt64) : UInt64 :=
  if 0 < n % limit.value then n / limit.value + 1 else n / limit.value

/-- The counts of a collection of `total` submissions when a page of `originalLength` of them
has been reduced to `filteredLength`. A total that is less than what the page has lost
becomes zero. -/
def reconcile (total : UInt64) (originalLength filteredLength : Nat) (limit : PageLimit) :
    PageCounts :=
  let remaining := UInt64.ofNat (total.toNat - (originalLength - filteredLength))
  ⟨remaining, limit.pagesFor remaining⟩

end FormSieve
