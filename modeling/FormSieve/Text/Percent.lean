import FormSieve.Text.Bytes

/-!
# Percent-encoding

A byte is written as a percent sign and two hexadecimal digits. Decoding leaves a percent
sign that is not followed by two digits as it is.
-/

namespace FormSieve.Percent

open Ascii

def decode : Bytes → Bytes
  | [] => []
  | b :: rest =>
    if b = percent then
      match rest with
      | high :: low :: tail =>
        match hexDigit? high, hexDigit? low with
        | some h, some l => UInt8.ofNat (16 * h + l) :: decode tail
        | _, _ => b :: decode (high :: low :: tail)
      | [x] => b :: decode [x]
      | [] => [b]
    else b :: decode rest

/-- The digit of a number below sixteen, in upper case. -/
def hexChar (n : Nat) : Char := Char.ofNat (if n < 10 then 0x30 + n else 0x37 + n)

def encodeByte (b : UInt8) : List Char :=
  ['%', hexChar (b.toNat / 16), hexChar (b.toNat % 16)]

/-- Writes the bytes that `keeps` admits as they are. `keeps` must admit ASCII bytes alone. -/
def encodeWith (keeps : UInt8 → Bool) (bs : Bytes) : List Char :=
  bs.flatMap fun b => if keeps b then [Char.ofNat b.toNat] else encodeByte b

end FormSieve.Percent
