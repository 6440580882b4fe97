import FormSieve.Number.Power
import FormSieve.Text.Blank

/-!
# Page limits

How many submissions make up a page. A limit is a positive number of 64 bits; in a request it
is written in decimal, with blanks around it and a plus sign before it if one likes.
-/

namespace FormSieve

structure PageLimit where
  value : UInt64
  positive : 0 < value
deriving DecidableEq, Repr

namespace PageLimit

/-- Zero is no limit. -/
def ofUInt64? (n : UInt64) : Option PageLimit := if h : 0 < n then some ⟨n, h⟩ else none

@[simp] theorem ofUInt64?_value (limit : PageLimit) : ofUInt64? limit.value = some limit := by
  simp [ofUInt64?, limit.positive]

/-- The limit where none is given. -/
def standard : PageLimit := ⟨150, by decide⟩

/-- The number that decimal digits denote, unless there is none or it takes more than 64
bits. -/
def ofDigits? (digits : List Char) : Option UInt64 :=
  if digits.isEmpty || !digits.all Char.isDigit then none
  else
    let n := Nat.ofDigitChars 10 digits 0
    if n < 2 ^ 64 then some (UInt64.ofNat n) else none

/-- The number of a decimal text with an optional plus sign. -/
def unsigned? (cs : List Char) : Option UInt64 :=
  match cs with
  | '+' :: digits => ofDigits? digits
  | digits => ofDigits? digits

def parse (s : String) : Option PageLimit :=
  (unsigned? (Text.trimChars s.toList)).bind ofUInt64?

end PageLimit

end FormSieve
