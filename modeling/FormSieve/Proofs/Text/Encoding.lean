import FormSieve.Proofs.Text.Percent
import Mathlib.Tactic.SplitIfs

/-!
# The bytes of texts

Encoding goes character by character: ASCII characters are single bytes of their own number, and
the bytes of other characters are all beyond ASCII.
-/

namespace FormSieve.Text

/-- The bytes of some characters. -/
def encode (cs : List Char) : Bytes := cs.flatMap String.utf8EncodeChar

@[simp] theorem encode_nil : encode [] = [] := rfl

theorem encode_cons (c : Char) (cs : List Char) :
    encode (c :: cs) = String.utf8EncodeChar c ++ encode cs := rfl

theorem encode_append (cs more : List Char) : encode (cs ++ more) = encode cs ++ encode more :=
  List.flatMap_append

theorem bytes_eq_encode (s : String) : bytes s = encode s.toList := by
  rw [encode, ← bytes_ofList, String.ofList_toList]

@[simp] theorem bytes_ofList_eq_encode (cs : List Char) : bytes (String.ofList cs) = encode cs :=
  bytes_ofList cs

theorem bytes_append (s more : String) : bytes (s ++ more) = bytes s ++ bytes more := by
  rw [bytes_eq_encode, String.toList_append, encode_append, ← bytes_eq_encode, ← bytes_eq_encode]

theorem encode_intercalate (separator : List Char) (pieces : List (List Char)) :
    encode (separator.intercalate pieces) =
      (encode separator).intercalate (pieces.map encode) := by
  induction pieces with
  | nil => rfl
  | cons piece pieces ih =>
      cases pieces with
      | nil => simp
      | cons next more =>
          rw [List.intercalate_cons_cons, encode_append, encode_append, ih, List.map_cons,
            List.map_cons, List.map_cons, List.intercalate_cons_cons]

theorem bytes_intercalate (separator : String) (pieces : List String) :
    bytes (separator.intercalate pieces) = (bytes separator).intercalate (pieces.map bytes) := by
  have each : pieces.map bytes = (pieces.map String.toList).map encode := by
    rw [List.map_map]
    exact List.map_congr_left fun s _ => bytes_eq_encode s
  rw [each, bytes_eq_encode, bytes_eq_encode, String.toList_intercalate, encode_intercalate]

/-- A byte of an ASCII character, as a number. -/
theorem utf8EncodeChar_ofNat_of_ascii {b : UInt8} (h : b.toNat < 0x80) :
    String.utf8EncodeChar (Char.ofNat b.toNat) = [b] := by
  have number := Percent.toNat_ofNat_of_ascii h
  rw [utf8EncodeChar_of_ascii (by rw [number]; exact h), number, UInt8.ofNat_toNat]

/-- All bytes of a character beyond ASCII are beyond ASCII. -/
theorem le_of_mem_utf8EncodeChar {c : Char} (h : 0x80 ≤ c.toNat) {b : UInt8}
    (hb : b ∈ String.utf8EncodeChar c) : 0x80 ≤ b.toNat := by
  have beyond : ¬c.val.toNat ≤ 127 := Nat.not_le.2 h
  simp only [String.utf8EncodeChar, beyond, if_false] at hb
  split_ifs at hb <;> simp only [List.mem_cons, List.not_mem_nil, or_false] at hb
  · rcases hb with rfl | rfl <;> simp only [UInt8.toNat_ofNat'] <;> omega
  · rcases hb with rfl | rfl | rfl <;> simp only [UInt8.toNat_ofNat'] <;> omega
  · rcases hb with rfl | rfl | rfl | rfl <;> simp only [UInt8.toNat_ofNat'] <;> omega

/-- An ASCII byte is that of an ASCII character. -/
theorem mem_of_mem_encode {cs : List Char} {b : UInt8} (h : b ∈ encode cs)
    (ascii : b.toNat < 0x80) : Char.ofNat b.toNat ∈ cs := by
  obtain ⟨c, member, byte⟩ := List.mem_flatMap.1 h
  rcases Nat.lt_or_ge c.toNat 0x80 with small | large
  · rw [utf8EncodeChar_of_ascii small, List.mem_singleton] at byte
    have same : b.toNat = c.toNat := by
      rw [byte, UInt8.toNat_ofNat']
      omega
    rwa [same, Char.ofNat_toNat]
  · exact absurd (le_of_mem_utf8EncodeChar large byte) (Nat.not_le.2 ascii)

end FormSieve.Text
