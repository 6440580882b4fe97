import FormSieve.Number.Power

/-!
# Double-precision numbers

A finite double is a sign and a *rank*: its place among the non-negative doubles in ascending
order, zero having rank 0. The rank is also the number's bit pattern without the sign, so
nothing is lost, and the order of magnitudes is the order of ranks.

Every magnitude is a whole number of *units* of 2^-1074. Sums aside, which are not needed here,
arithmetic is exact arithmetic on units followed by one rounding to the nearest rank, where a
tie goes to the even rank.
-/

namespace FormSieve

namespace Binary64

/-- The rank one above the largest finite double. A rounding that reaches it overflows. -/
def infinityRank : Nat := 2047 * 2 ^ 52

/-- One, in units. -/
def unitsPerOne : Nat := 2 ^ 1074

/-- The magnitude of a rank, in units. Below rank 2^52 the doubles are one unit apart; from
there on the distance doubles every 2^52 ranks. -/
def units (rank : Nat) : Nat :=
  if rank < 2 ^ 52 then rank else (2 ^ 52 + rank % 2 ^ 52) * 2 ^ (rank / 2 ^ 52 - 1)

/-- The quotient rounded to the nearest whole number, a half to the even one. -/
def roundHalfEven (n d : Nat) : Nat :=
  if 2 * (n % d) < d then n / d
  else if d < 2 * (n % d) then n / d + 1
  else n / d + n / d % 2

/-- The rank nearest to the magnitude of `n / d` units. -/
def nearestRank (n d : Nat) : Nat :=
  -- The spacing at this magnitude is `2 ^ spacing` units.
  let spacing := (n / d).log2 - 52
  spacing * 2 ^ 52 + roundHalfEven n (d * 2 ^ spacing)

/-- The rank nearest to a whole number. -/
def rankOfNat (n : Nat) : Nat := nearestRank (n * unitsPerOne) 1

/-- The rank nearest to the product of two magnitudes. -/
def mulRank (a b : Nat) : Nat := nearestRank (units a * units b) unitsPerOne

/-- The rank nearest to the quotient of two magnitudes. -/
def divRank (a b : Nat) : Nat := nearestRank (units a * unitsPerOne) (units b)

end Binary64

/-- A finite double. -/
structure Binary64 where
  negative : Bool
  rank : Nat
  finite : rank < Binary64.infinityRank
deriving DecidableEq, Repr

namespace Binary64

/-- The double of a given rank, unless that is beyond the finite ones. -/
def ofRank? (negative : Bool) (rank : Nat) : Option Binary64 :=
  if h : rank < infinityRank then some ⟨negative, rank, h⟩ else none

/-- The rank with its sign. Both zeros are at 0; otherwise distinct doubles differ here, and
the smaller double is the one with the smaller signed rank. -/
def signedRank (x : Binary64) : Int := if x.negative then -x.rank else x.rank

end Binary64

end FormSieve
