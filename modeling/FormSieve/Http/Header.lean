import FormSieve.Text.Bytes

/-!
# Headers of requests

Names are tokens and are compared without regard to case. Values are runs of bytes without
control characters; they need not be text.
-/

namespace FormSieve.Http

/-- The marks that a token may have beside letters and digits. -/
def tokenMarks : List Char :=
  ['!', '#', '$', '%', '&', '\x27', '*', '+', '-', '.', '^', '_', '\x60', '|', '~']

def isTokenByte (b : UInt8) : Bool :=
  Ascii.isAlphanumeric b || tokenMarks.contains (Char.ofNat b.toNat)

def isToken (bs : Bytes) : Bool := !bs.isEmpty && bs.all isTokenByte

/-- A byte that a header value may have. -/
def isValueByte (b : UInt8) : Bool := b = Ascii.tab || 0x20 ≤ b && b ≠ 0x7F

def isHeaderValue (bs : Bytes) : Bool := bs.all isValueByte

/-- Visible characters of ASCII, blanks and tabs. -/
def isPlainByte (b : UInt8) : Bool := b = Ascii.tab || 0x20 ≤ b && b < 0x7F

/-- The text of a header value that has none but plain bytes. -/
def plainText? (value : Bytes) : Option String :=
  if value.all isPlainByte then some (String.ofList (value.map fun b => Char.ofNat b.toNat))
  else none

structure Header where
  /-- In lower case. -/
  name : Bytes
  value : Bytes
deriving DecidableEq, Repr

/-- A header from its name and its value. -/
def Header.ofTexts? (name value : String) : Option Header :=
  if isToken (Text.bytes name) && isHeaderValue (Text.bytes value) then
    some ⟨(Text.bytes name).map Ascii.lower, Text.bytes value⟩
  else none

end FormSieve.Http
