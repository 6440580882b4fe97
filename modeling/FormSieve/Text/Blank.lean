/-!
# Blank characters

The blank characters are those with the Unicode property White_Space. Limits and base
addresses are compared with blanks at either end removed, and a text of blanks alone counts
as not given.
-/

namespace FormSieve.Text

/-- The ranges of the property White_Space, both ends included. -/
def blankRanges : List (Nat × Nat) :=
  [(0x09, 0x0D), (0x20, 0x20), (0x85, 0x85), (0xA0, 0xA0), (0x1680, 0x1680), (0x2000, 0x200A),
    (0x2028, 0x2029), (0x202F, 0x202F), (0x205F, 0x205F), (0x3000, 0x3000)]

def isBlankChar (c : Char) : Bool :=
  blankRanges.any fun (first, last) => first ≤ c.toNat && c.toNat ≤ last

/-- The characters between the first and the last that is not blank. -/
def trimChars (cs : List Char) : List Char :=
  (((cs.dropWhile isBlankChar).reverse).dropWhile isBlankChar).reverse

/-- A text without the blanks at its ends. -/
def trim (s : String) : String := String.ofList (trimChars s.toList)

/-- A text with nothing in it but blanks. -/
def isBlank (s : String) : Bool := s.toList.all isBlankChar

end FormSieve.Text
