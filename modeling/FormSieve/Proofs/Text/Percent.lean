import FormSieve.Text.Percent

/-!
# Decoding what was percent-encoded

Percent-encoding does not change what a text decodes to, as long as percent signs and the digits
behind them are kept. Decoding never makes a text longer, and makes it shorter for every escape:
the texts that decode to themselves are those without escapes.
-/

namespace FormSieve

/-! ## Texts as bytes, character by character -/

namespace Text

theorem bytes_ofList (cs : List Char) :
    bytes (String.ofList cs) = cs.flatMap String.utf8EncodeChar := by
  simp [bytes, List.utf8Encode]

/-- An ASCII character is one byte. -/
theorem utf8EncodeChar_of_ascii {c : Char} (h : c.toNat < 0x80) :
    String.utf8EncodeChar c = [UInt8.ofNat c.toNat] := by
  rw [String.utf8EncodeChar, if_pos (by simpa using Nat.le_of_lt_succ h)]
  rfl

end Text

namespace Percent

open Ascii

/-! ## Escapes -/

/-- The byte that is written with two digits at the front, and what follows them. -/
def digits? : Bytes → Option (UInt8 × Bytes)
  | high :: low :: tail =>
    match hexDigit? high, hexDigit? low with
    | some h, some l => some (UInt8.ofNat (16 * h + l), tail)
    | _, _ => none
  | _ => none

@[simp] theorem decode_nil : decode [] = [] := by
  rw [decode]

theorem decode_of_ne {b : UInt8} (h : b ≠ percent) (rest : Bytes) :
    decode (b :: rest) = b :: decode rest := by
  rw [decode.eq_def]
  exact if_neg h

/-- A percent sign is read with the digits behind it, if there are two. -/
theorem decode_percent (rest : Bytes) :
    decode (percent :: rest) =
      match digits? rest with
      | some (b, tail) => b :: decode tail
      | none => percent :: decode rest := by
  match rest with
  | [] => simp [decode, digits?]
  | [x] => simp [decode, digits?]
  | high :: low :: tail =>
      simp only [decode, digits?, if_true]
      split <;> simp_all

theorem length_of_digits? {rest tail : Bytes} {b : UInt8} (h : digits? rest = some (b, tail)) :
    rest.length = tail.length + 2 := by
  match rest with
  | [] => simp [digits?] at h
  | [x] => simp [digits?] at h
  | high :: low :: rest =>
      simp only [digits?] at h
      split at h
      · obtain ⟨-, rfl⟩ := Prod.mk.inj (Option.some.inj h)
        rfl
      · exact absurd h (by simp)

theorem digits?_of_first {a : UInt8} (h : hexDigit? a = none) (rest : Bytes) :
    digits? (a :: rest) = none := by
  cases rest with
  | nil => rfl
  | cons b rest => rw [digits?, h]

theorem digits?_of_second {b : UInt8} (h : hexDigit? b = none) (a : UInt8) (rest : Bytes) :
    digits? (a :: b :: rest) = none := by
  rw [digits?, h]
  cases hexDigit? a <;> rfl

theorem hexDigit?_percent : hexDigit? percent = none := by decide

/-- What has no percent sign in it is decoded to itself. -/
theorem decode_of_free {bs : Bytes} (free : percent ∉ bs) : decode bs = bs := by
  induction bs with
  | nil => exact decode_nil
  | cons b rest ih =>
      obtain ⟨other, free⟩ := List.ne_and_not_mem_of_not_mem_cons free
      rw [decode_of_ne (Ne.symm other), ih free]

/-! ## Lengths -/

theorem length_decode_le (bs : Bytes) : (decode bs).length ≤ bs.length := by
  induction n : bs.length using Nat.strongRecOn generalizing bs with
  | ind n ih =>
      subst n
      cases bs with
      | nil => simp
      | cons b rest =>
          have whole : (decode rest).length ≤ rest.length := ih _ (by simp) rest rfl
          by_cases escape : b = percent
          · subst escape
            rw [decode_percent]
            cases begun : digits? rest with
            | none => simpa using whole
            | some found =>
                have shorter := length_of_digits? begun
                have tail := ih found.2.length (by simp; omega) found.2 rfl
                simp only [List.length_cons]
                omega
          · rw [decode_of_ne escape]
            simpa using whole

/-- What decodes to itself has no escape, so neither has what is behind its first byte. -/
theorem decode_eq_self_of_cons {b : UInt8} {rest : Bytes} (h : decode (b :: rest) = b :: rest) :
    decode rest = rest := by
  by_cases escape : b = percent
  · subst escape
    rw [decode_percent] at h
    cases begun : digits? rest with
    | none =>
        rw [begun] at h
        exact List.tail_eq_of_cons_eq h
    | some found =>
        have shorter := length_of_digits? begun
        have tail := length_decode_le found.2
        rw [begun] at h
        have same := congrArg List.length h
        simp only [List.length_cons] at same
        omega
  · rw [decode_of_ne escape] at h
    exact List.tail_eq_of_cons_eq h

theorem decode_eq_self_of_append (front : Bytes) {rest : Bytes}
    (h : decode (front ++ rest) = front ++ rest) : decode rest = rest := by
  induction front with
  | nil => exact h
  | cons b front ih => exact ih (decode_eq_self_of_cons h)

/-! ## Encoding and decoding -/

/-- The bytes that are kept are ASCII, and those of escapes are among them. -/
structure KeepsEscapes (keeps : UInt8 → Bool) : Prop where
  ascii : ∀ b, keeps b = true → b.toNat < 0x80
  percent : keeps percent = true
  digit : ∀ b, keeps b = false → hexDigit? b = none

/-- The byte of a digit. -/
def digitByte (n : Nat) : UInt8 := UInt8.ofNat (hexChar n).toNat

/-- The bytes that are written for a byte. -/
def written (keeps : UInt8 → Bool) (b : UInt8) : Bytes :=
  if keeps b then [b] else [percent, digitByte (b.toNat / 16), digitByte (b.toNat % 16)]

theorem hexChar_ascii : ∀ n < 16, (hexChar n).toNat < 0x80 := by decide

theorem hexDigit?_digitByte : ∀ n < 16, hexDigit? (digitByte n) = some n := by decide

/-- The two digits of a byte are read as that byte. -/
theorem digits?_digitBytes (b : UInt8) (rest : Bytes) :
    digits? (digitByte (b.toNat / 16) :: digitByte (b.toNat % 16) :: rest) = some (b, rest) := by
  have high : b.toNat / 16 < 16 := Nat.div_lt_of_lt_mul b.toNat_lt
  have low : b.toNat % 16 < 16 := Nat.mod_lt _ (by decide)
  rw [digits?, hexDigit?_digitByte _ high, hexDigit?_digitByte _ low]
  simp only [Nat.div_add_mod, UInt8.ofNat_toNat]

theorem toNat_ofNat_of_ascii {n : Nat} (h : n < 0x80) : (Char.ofNat n).toNat = n := by
  rw [Char.ofNat, dif_pos (.inl (by omega))]
  rfl

theorem bytes_encodeByte (b : UInt8) :
    (encodeByte b).flatMap String.utf8EncodeChar =
      [percent, digitByte (b.toNat / 16), digitByte (b.toNat % 16)] := by
  have high : b.toNat / 16 < 16 := Nat.div_lt_of_lt_mul b.toNat_lt
  have low : b.toNat % 16 < 16 := Nat.mod_lt _ (by decide)
  simp [encodeByte, digitByte, Text.utf8EncodeChar_of_ascii (hexChar_ascii _ high),
    Text.utf8EncodeChar_of_ascii (hexChar_ascii _ low), Text.utf8EncodeChar_of_ascii (c := '%')]

variable {keeps : UInt8 → Bool}

theorem bytes_encodeWith (h : KeepsEscapes keeps) (bs : Bytes) :
    Text.bytes (String.ofList (encodeWith keeps bs)) = bs.flatMap (written keeps) := by
  rw [Text.bytes_ofList, encodeWith]
  induction bs with
  | nil => rfl
  | cons b rest ih =>
      rw [List.flatMap_cons, List.flatMap_cons, List.flatMap_append, ih, written]
      cases kept : keeps b with
      | true =>
          have ascii := toNat_ofNat_of_ascii (h.ascii b kept)
          have one := Text.utf8EncodeChar_of_ascii (by rw [ascii]; exact h.ascii b kept)
          simp [one, ascii]
      | false => simp [bytes_encodeByte]

theorem written_of_kept {b : UInt8} (h : keeps b = true) : written keeps b = [b] :=
  if_pos h

theorem written_of_not_kept {b : UInt8} (h : keeps b = false) :
    written keeps b = [percent, digitByte (b.toNat / 16), digitByte (b.toNat % 16)] :=
  if_neg (ne_true_of_eq_false h)

theorem KeepsEscapes.keeps_digitByte (h : KeepsEscapes keeps) {n : Nat} (small : n < 16) :
    keeps (digitByte n) = true := by
  rw [← Bool.not_eq_false]
  intro escaped
  have digit := hexDigit?_digitByte n small
  rw [h.digit _ escaped] at digit
  exact nomatch digit

section Escapes

variable {P : UInt8 → Prop} (mark : P percent) (digit : ∀ n < 16, P (digitByte n))
include mark digit

/-- An escape is made of a percent sign and two digits. -/
theorem forall_mem_escape (b : UInt8) :
    ∀ c ∈ [percent, digitByte (b.toNat / 16), digitByte (b.toNat % 16)], P c := by
  have high : b.toNat / 16 < 16 := Nat.div_lt_of_lt_mul b.toNat_lt
  have low : b.toNat % 16 < 16 := Nat.mod_lt _ (by decide)
  simp [mark, digit _ high, digit _ low]

/-- What is written is what is kept, and escapes. -/
theorem forall_mem_written {b : UInt8} (kept : keeps b = true → P b) :
    ∀ c ∈ written keeps b, P c := by
  rw [written]
  split
  · next keep => exact List.forall_mem_singleton.2 (kept keep)
  · exact forall_mem_escape mark digit b

end Escapes

/-- Digits are read as such before and after encoding. -/
theorem digits?_written (h : KeepsEscapes keeps) (rest : Bytes) :
    digits? (rest.flatMap (written keeps)) =
      (digits? rest).map fun (b, tail) => (b, tail.flatMap (written keeps)) := by
  match rest with
  | [] => rfl
  | x :: rest =>
      rw [List.flatMap_cons]
      cases first : keeps x with
      | false =>
          rw [written_of_not_kept first, digits?_of_first (h.digit x first)]
          exact digits?_of_first hexDigit?_percent _
      | true =>
          rw [written_of_kept first]
          match rest with
          | [] => rfl
          | y :: tail =>
              rw [List.flatMap_cons]
              cases second : keeps y with
              | false =>
                  rw [written_of_not_kept second, digits?_of_second (h.digit y second)]
                  exact digits?_of_second hexDigit?_percent _ _
              | true =>
                  rw [written_of_kept second]
                  show digits? (x :: y :: tail.flatMap (written keeps)) = _
                  simp only [digits?]
                  cases hexDigit? x <;> cases hexDigit? y <;> rfl

/-- Encoding does not change what is decoded. -/
theorem decode_written (h : KeepsEscapes keeps) (bs : Bytes) :
    decode (bs.flatMap (written keeps)) = decode bs := by
  induction n : bs.length using Nat.strongRecOn generalizing bs with
  | ind n ih =>
      subst n
      cases bs with
      | nil => rfl
      | cons b rest =>
          have whole := ih _ (by simp) rest rfl
          by_cases escape : b = percent
          · subst escape
            rw [List.flatMap_cons, written_of_kept h.percent, List.singleton_append,
              decode_percent, decode_percent, digits?_written h]
            cases begun : digits? rest with
            | none => simp [whole]
            | some found =>
                have shorter := length_of_digits? begun
                have tail := ih found.2.length (by simp; omega) found.2 rfl
                simp [tail]
          · rw [List.flatMap_cons, decode_of_ne escape]
            cases kept : keeps b with
            | true => rw [written_of_kept kept, List.singleton_append, decode_of_ne escape, whole]
            | false =>
                rw [written_of_not_kept kept]
                show decode (percent :: digitByte _ :: digitByte _ :: _) = _
                rw [decode_percent, digits?_digitBytes]
                exact congrArg (b :: ·) whole

/-- Where percent signs are not kept, every escape in what is written was put there. -/
theorem decode_written_of_not_percent (h : keeps percent = false) (bs : Bytes) :
    decode (bs.flatMap (written keeps)) = bs := by
  induction bs with
  | nil => rfl
  | cons b rest ih =>
      rw [List.flatMap_cons]
      cases kept : keeps b with
      | true =>
          have plain : b ≠ percent := by
            rintro rfl
            exact absurd (kept.symm.trans h) (by decide)
          rw [written_of_kept kept, List.singleton_append, decode_of_ne plain, ih]
      | false =>
          rw [written_of_not_kept kept]
          show decode (percent :: digitByte _ :: digitByte _ :: _) = _
          rw [decode_percent, digits?_digitBytes]
          exact congrArg (b :: ·) ih

theorem decode_encodeWith (h : KeepsEscapes keeps) (bs : Bytes) :
    decode (Text.bytes (String.ofList (encodeWith keeps bs))) = decode bs := by
  rw [bytes_encodeWith h, decode_written h]

end Percent

end FormSieve
