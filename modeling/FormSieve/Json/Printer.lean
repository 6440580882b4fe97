import FormSieve.Json.Value
import FormSieve.Number.Shortest
import FormSieve.Text.Quoted

/-!
# Writing JSON

Documents are written without blanks, members in the order of the names. In texts only the
quote, the backslash and the control characters below U+0020 are escaped.
-/

namespace FormSieve.Json

/-- A character as it stands in a written text. -/
def printChar (c : Char) : List Char :=
  if c = '"' then ['\\', '"']
  else if c = '\\' then ['\\', '\\']
  else if c = '\x08' then ['\\', 'b']
  else if c = '\x0c' then ['\\', 'f']
  else if c = '\n' then ['\\', 'n']
  else if c = '\r' then ['\\', 'r']
  else if c = '\t' then ['\\', 't']
  else if c.toNat < 0x20 then
    ['\\', 'u', '0', '0', Nat.digitChar (c.toNat / 16), Nat.digitChar (c.toNat % 16)]
  else [c]

/-- A text with its quotes. -/
def printText (s : String) : String :=
  String.ofList ('"' :: (s.toList.flatMap printChar ++ ['"']))

/-- How the digits of a double are laid out: positionally if the magnitude is at least
`10 ^ smallest` and below `10 ^ largest`, and otherwise with an exponent. -/
structure FloatLayout where
  smallest : Int
  largest : Int

/-- The layout of documents: positional from 0.00001 up to below 10^16. -/
def floatLayout : FloatLayout := ⟨-5, 16⟩

def zeros (n : Nat) : List Char := List.replicate n '0'

/-- The digits of a positive decimal. In positional notation there is always a digit on both
sides of the point; an exponent always has a sign, and follows a single digit directly. -/
def FloatLayout.print (layout : FloatLayout) (d : Decimal) : List Char :=
  let digits := Nat.toDigits 10 d.digits
  -- The power of ten of the first digit.
  let lead : Int := d.exponent + digits.length - 1
  if layout.smallest ≤ lead ∧ lead < layout.largest then
    if 0 ≤ d.exponent then digits ++ zeros d.exponent.toNat ++ ['.', '0']
    else if 0 ≤ lead then
      digits.take (lead.toNat + 1) ++ '.' :: digits.drop (lead.toNat + 1)
    else ['0', '.'] ++ zeros (-lead - 1).toNat ++ digits
  else
    let mantissa :=
      match digits with
      | first :: more => if more.isEmpty then [first] else first :: '.' :: more
      | [] => []
    mantissa ++ 'e' :: (if lead < 0 then '-' else '+') :: Nat.toDigits 10 lead.natAbs

/-- A double with the fewest digits that tell it apart. -/
def printFloat (x : Binary64) : String :=
  let magnitude :=
    if x.rank = 0 then ['0', '.', '0'] else floatLayout.print (Binary64.shortest x.rank)
  String.ofList (if x.negative then '-' :: magnitude else magnitude)

/-- A whole number in decimal. -/
def printInt (n : Int) : String :=
  if n < 0 then "-" ++ n.natAbs.repr else n.natAbs.repr

def Number.print : Number → String
  | .integer n _ => printInt n
  | .float x => printFloat x

/-- Texts with commas between them. -/
def commaSeparated : List String → String
  | [] => ""
  | [s] => s
  | s :: rest => s ++ "," ++ commaSeparated rest

/-- A list of documents as a document. -/
def printList (items : List String) : String := "[" ++ commaSeparated items ++ "]"

/-- Named documents as a document. -/
def printRecord (members : List (String × String)) : String :=
  "\x7b" ++ commaSeparated (members.map fun m => printText m.1 ++ ":" ++ m.2) ++ "\x7d"

mutual

/-- A value as a document. -/
def Value.print : Value → String
  | .null => "null"
  | .boolean true => "true"
  | .boolean false => "false"
  | .number n => n.print
  | .text s => printText s
  | .array items => printList (printAll items)
  | .object members => printRecord (printMembers members)

/-- Several values, each as a document. -/
def printAll : List Value → List String
  | [] => []
  | v :: vs => v.print :: printAll vs

/-- Named values, each as a document under its name. -/
def printMembers : List (String × Value) → List (String × String)
  | [] => []
  | (name, v) :: ms => (name, v.print) :: printMembers ms

end

end FormSieve.Json
