/-!
# Texts as bytes

A text is a `String`; what is read from a file, a request or a reply is a run of bytes.
This module fixes how the two correspond (UTF-8), how runs of bytes are ordered, and the
few ASCII bytes that the formats of this library are made of.

Texts are ordered by their encoded bytes. UTF-8 keeps the order of code points, so this is
also the order of the texts as sequences of characters.
-/

namespace FormSieve

/-- A run of bytes, encoded text or not. -/
abbrev Bytes := List UInt8

namespace Bytes

/-- Lexicographic order; a proper beginning of a run comes before the run. -/
def order : Bytes → Bytes → Ordering
  | [], [] => .eq
  | [], _ :: _ => .lt
  | _ :: _, [] => .gt
  | a :: as, b :: bs => if a < b then .lt else if b < a then .gt else order as bs

@[simp] theorem order_self (a : Bytes) : order a a = .eq := by
  induction a with
  | nil => rfl
  | cons x xs ih => simp [order, ih]

theorem order_eq_iff {a b : Bytes} : order a b = .eq ↔ a = b := by
  fun_induction order a b with
  | case1 => simp
  | case2 => simp
  | case3 => simp
  | case4 a as b bs less =>
    simp only [reduceCtorEq, List.cons.injEq, false_iff]
    rintro ⟨rfl, -⟩
    exact UInt8.lt_irrefl _ less
  | case5 a as b bs _ greater =>
    simp only [reduceCtorEq, List.cons.injEq, false_iff]
    rintro ⟨rfl, -⟩
    exact UInt8.lt_irrefl _ greater
  | case6 a as b bs less greater ih =>
    have same : a = b := UInt8.le_antisymm (UInt8.not_lt.1 greater) (UInt8.not_lt.1 less)
    simp [ih, same]

/-- The pieces between separators: one more piece than there are separators. -/
def splitOn (separator : UInt8) : Bytes → List Bytes
  | [] => [[]]
  | b :: rest =>
    if b = separator then [] :: splitOn separator rest
    else
      match splitOn separator rest with
      | [] => [[b]]
      | piece :: pieces => (b :: piece) :: pieces

/-- What stands before the first separator and what stands after it. Without a separator
the second part is empty. -/
def cutAt (separator : UInt8) : Bytes → Bytes × Bytes
  | [] => ([], [])
  | b :: rest =>
    if b = separator then ([], rest)
    else ((b :: (cutAt separator rest).1), (cutAt separator rest).2)

end Bytes

namespace Text

/-- The UTF-8 encoding of a text. -/
def bytes (s : String) : Bytes := s.toByteArray.data.toList

/-- The text that a run of bytes encodes, if it is well-formed UTF-8. -/
def ofBytes? (bs : Bytes) : Option String := String.fromUTF8? ⟨bs.toArray⟩

@[simp] theorem ofBytes?_bytes (s : String) : ofBytes? (bytes s) = some s := by
  have encoded : (⟨(bytes s).toArray⟩ : ByteArray) = s.toByteArray := by simp [bytes]
  simp [ofBytes?, encoded, String.fromUTF8?, s.isValidUTF8, String.fromUTF8]

theorem bytes_eq_of_ofBytes? {bs : Bytes} {s : String} (h : ofBytes? bs = some s) :
    bytes s = bs := by
  unfold ofBytes? String.fromUTF8? at h
  split at h
  · cases h
    simp [bytes, String.fromUTF8]
  · cases h

theorem bytes_inj {a b : String} : bytes a = bytes b ↔ a = b := by
  refine ⟨fun h => ?_, fun h => h ▸ rfl⟩
  exact Option.some_inj.1 (by rw [← ofBytes?_bytes a, h, ofBytes?_bytes])

/-- The order of texts, by encoded bytes. -/
def order (a b : String) : Ordering := Bytes.order (bytes a) (bytes b)

@[simp] theorem order_self (s : String) : order s s = .eq := Bytes.order_self _

theorem order_eq_iff {a b : String} : order a b = .eq ↔ a = b :=
  Bytes.order_eq_iff.trans bytes_inj

end Text

namespace Ascii

abbrev tab : UInt8 := 0x09
abbrev newline : UInt8 := 0x0A
abbrev carriageReturn : UInt8 := 0x0D
abbrev space : UInt8 := 0x20
abbrev quote : UInt8 := 0x22
abbrev percent : UInt8 := 0x25
abbrev ampersand : UInt8 := 0x26
abbrev plus : UInt8 := 0x2B
abbrev comma : UInt8 := 0x2C
abbrev minus : UInt8 := 0x2D
abbrev point : UInt8 := 0x2E
abbrev slash : UInt8 := 0x2F
abbrev zero : UInt8 := 0x30
abbrev colon : UInt8 := 0x3A
abbrev equalSign : UInt8 := 0x3D
abbrev leftBracket : UInt8 := 0x5B
abbrev backslash : UInt8 := 0x5C
abbrev rightBracket : UInt8 := 0x5D
abbrev leftBrace : UInt8 := 0x7B
abbrev rightBrace : UInt8 := 0x7D

/-- The value of a decimal digit. -/
def digit? (b : UInt8) : Option Nat :=
  if 0x30 ≤ b ∧ b ≤ 0x39 then some (b.toNat - 0x30) else none

/-- The value of a hexadecimal digit, in either case. -/
def hexDigit? (b : UInt8) : Option Nat :=
  if 0x30 ≤ b ∧ b ≤ 0x39 then some (b.toNat - 0x30)
  else if 0x41 ≤ b ∧ b ≤ 0x46 then some (b.toNat - 0x37)
  else if 0x61 ≤ b ∧ b ≤ 0x66 then some (b.toNat - 0x57)
  else none

/-- Letters of either case and digits. -/
def isAlphanumeric (b : UInt8) : Bool :=
  (0x30 ≤ b ∧ b ≤ 0x39) ∨ (0x41 ≤ b ∧ b ≤ 0x5A) ∨ (0x61 ≤ b ∧ b ≤ 0x7A)

/-- The letter in lower case; any other byte is left alone. -/
def lower (b : UInt8) : UInt8 := if 0x41 ≤ b ∧ b ≤ 0x5A then b + 0x20 else b

end Ascii

end FormSieve
