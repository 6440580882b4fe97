import FormSieve.Number.Binary64

/-!
# The shortest decimal of a double

A double is written with the fewest significant digits that still read back as that double
under exact rounding; of the decimals with that many digits, with the one nearest to it.

The reals that round to a double form an interval between the midpoints to its two neighbours,
the ends included when its rank is even. For one digit, two digits, and so on, the two
neighbours of the double on that decimal grid are tried in exact arithmetic.
-/

namespace FormSieve

/-- The number `digits * 10 ^ exponent`. -/
structure Decimal where
  digits : Nat
  exponent : Int
deriving DecidableEq, Repr

namespace Decimal

/-- The same number with no zero at the end of its digits. -/
def trimZeros : Nat → Decimal → Decimal
  | 0, d => d
  | fuel + 1, d =>
    if d.digits ≠ 0 ∧ d.digits % 10 = 0 then trimZeros fuel ⟨d.digits / 10, d.exponent + 1⟩
    else d

end Decimal

namespace Binary64

/-- Lengths are measured in `10 ^ -decimalScale`, in which every positive double is at least
`10 ^ 76`, so that all grids that matter have whole steps. -/
def decimalScale : Nat := 400

/-- Whether the decimal point `point`, in units, rounds to the given rank. Twice the numbers are
compared, since the ends of the interval are midpoints. -/
def roundsTo (rank point : Nat) : Bool :=
  let low := (units (rank - 1) + units rank) * 10 ^ decimalScale
  let high := (units rank + units (rank + 1)) * 10 ^ decimalScale
  if rank % 2 = 0 then low ≤ 2 * point && 2 * point ≤ high
  else low < 2 * point && 2 * point < high

/-- Tries the grids with `count`, `count + 1`, … digits in turn, as many as `left` says; `value`
is the magnitude in scaled units and `length` the number of digits of its whole part. -/
def shortestFrom (rank value length : Nat) : Nat → Nat → Decimal
  | 0, count => ⟨value / (10 ^ (length - count) * unitsPerOne), length - count - decimalScale⟩
  | left + 1, count =>
    let step := 10 ^ (length - count) * unitsPerOne
    let below := value / step
    let exponent : Int := (length : Int) - count - decimalScale
    let lowFits := roundsTo rank (below * step)
    let highFits := roundsTo rank ((below + 1) * step)
    let nearer := value - below * step
    let farther := (below + 1) * step - value
    if lowFits && highFits then
      if nearer < farther || (nearer = farther && below % 2 = 0) then ⟨below, exponent⟩
      else ⟨below + 1, exponent⟩
    else if lowFits then ⟨below, exponent⟩
    else if highFits then ⟨below + 1, exponent⟩
    else shortestFrom rank value length left (count + 1)

/-- The shortest decimal of a positive rank. Seventeen digits always suffice. -/
def shortest (rank : Nat) : Decimal :=
  let value := units rank * 10 ^ decimalScale
  let length := (Nat.toDigits 10 (value / unitsPerOne)).length
  (shortestFrom rank value length 17 1).trimZeros 20

end Binary64

end FormSieve
