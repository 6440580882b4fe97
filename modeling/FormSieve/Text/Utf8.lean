import FormSieve.Text.Bytes

/-!
# Reading bytes as text whatever they are

`Text.lossy` reads any run of bytes. Each longest beginning of a well-formed sequence that
breaks off, and each byte that begins none, becomes one replacement character; everything
well-formed is kept.
-/

namespace FormSieve.Text

/-- A multi-byte sequence under way: the bits so far, how many bytes are still to come, and
the range in which the next of them must lie. -/
structure Sequence where
  bits : Nat
  missing : Nat
  low : UInt8
  high : UInt8

/-- What a byte can begin. -/
inductive Lead where
  | single (c : Char)
  | sequence (s : Sequence)
  | stray

/-- The first byte fixes the length and, for a few values, narrows the second byte so that
overlong forms, surrogates and numbers beyond U+10FFFF are never accepted. -/
def Lead.of (b : UInt8) : Lead :=
  if b < 0x80 then .single (Char.ofNat b.toNat)
  else if b < 0xC2 then .stray
  else if b < 0xE0 then .sequence ⟨b.toNat - 0xC0, 1, 0x80, 0xBF⟩
  else if b = 0xE0 then .sequence ⟨0, 2, 0xA0, 0xBF⟩
  else if b = 0xED then .sequence ⟨0xD, 2, 0x80, 0x9F⟩
  else if b < 0xF0 then .sequence ⟨b.toNat - 0xE0, 2, 0x80, 0xBF⟩
  else if b = 0xF0 then .sequence ⟨0, 3, 0x90, 0xBF⟩
  else if b < 0xF4 then .sequence ⟨b.toNat - 0xF0, 3, 0x80, 0xBF⟩
  else if b = 0xF4 then .sequence ⟨4, 3, 0x80, 0x8F⟩
  else .stray

/-- The character that stands for bytes that are no text. -/
def replacement : Char := '\uFFFD'

/-- Decodes with a sequence possibly under way. -/
def lossyChars : Option Sequence → Bytes → List Char
  | none, [] => []
  | some _, [] => [replacement]
  | none, b :: rest =>
    match Lead.of b with
    | .single c => c :: lossyChars none rest
    | .sequence s => lossyChars (some s) rest
    | .stray => replacement :: lossyChars none rest
  | some s, b :: rest =>
    if s.low ≤ b ∧ b ≤ s.high then
      let bits := s.bits * 64 + (b.toNat - 0x80)
      if s.missing ≤ 1 then Char.ofNat bits :: lossyChars none rest
      else lossyChars (some ⟨bits, s.missing - 1, 0x80, 0xBF⟩) rest
    else
      -- The byte that breaks a sequence off is read afresh.
      match Lead.of b with
      | .single c => replacement :: c :: lossyChars none rest
      | .sequence s => replacement :: lossyChars (some s) rest
      | .stray => replacement :: replacement :: lossyChars none rest

/-- The text of a run of bytes, with replacement characters where it is not well-formed. -/
def lossy (bs : Bytes) : String := String.ofList (lossyChars none bs)

end FormSieve.Text
