import FormSieve.Json.Printer
import FormSieve.Json.Reader
import FormSieve.Proofs.Text.Encoding

/-!
# Numerals

A numeral is read in the same way whatever follows it, as long as no number goes on there. The
numeral that is written for a whole number of 64 bits is read as that number.
-/

namespace FormSieve.Json

open Ascii

/-- Bytes with which a number goes on. -/
def isNumberByte (b : UInt8) : Bool := (digit? b).isSome || b = point || b = 0x65 || b = 0x45

/-- No number that stands before these bytes goes on here. -/
def Ended (rest : Bytes) : Prop := ∀ b ∈ rest.head?, isNumberByte b = false

namespace Ended

theorem nil : Ended [] := by simp [Ended]

theorem cons {b : UInt8} (h : isNumberByte b = false) (rest : Bytes) : Ended (b :: rest) := by
  simpa [Ended] using h

variable {b : UInt8} {rest : Bytes}

theorem head (h : Ended (b :: rest)) : isNumberByte b = false := h b rfl

theorem digit?_eq_none (h : Ended (b :: rest)) : digit? b = none := by
  have stops := h.head
  simp only [isNumberByte, Bool.or_eq_false_iff] at stops
  simpa using stops.1.1.1

theorem ne_point (h : Ended (b :: rest)) : b ≠ point := by
  have stops := h.head
  simp only [isNumberByte, Bool.or_eq_false_iff, decide_eq_false_iff_not] at stops
  exact stops.1.1.2

theorem exponentMark?_eq_none (h : Ended rest) : exponentMark? rest = none := by
  cases rest with
  | nil => rfl
  | cons b rest =>
      have stops := h.head
      simp only [isNumberByte, Bool.or_eq_false_iff, decide_eq_false_iff_not] at stops
      exact if_neg (by simp [stops.1.2, stops.2])

end Ended

/-! ## Reading on -/

section Append

variable {rest : Bytes} (ended : Ended rest)
include ended

theorem takeDigits_append (significand : Nat) (bs : Bytes) :
    takeDigits significand (bs ++ rest) =
      ((takeDigits significand bs).1, (takeDigits significand bs).2.1,
        (takeDigits significand bs).2.2 ++ rest) := by
  induction bs generalizing significand with
  | nil =>
      cases rest with
      | nil => rfl
      | cons b rest => simp [takeDigits, ended.digit?_eq_none]
  | cons b bs ih =>
      simp only [List.cons_append, takeDigits]
      split
      · rfl
      · split
        · simp [ih]
        · rfl

theorem countDigits_append (bs : Bytes) :
    countDigits (bs ++ rest) = ((countDigits bs).1, (countDigits bs).2 ++ rest) := by
  induction bs with
  | nil =>
      cases rest with
      | nil => rfl
      | cons b rest => simp [countDigits, ended.digit?_eq_none]
  | cons b bs ih =>
      simp only [List.cons_append, countDigits]
      split
      · simp [ih]
      · rfl

theorem exponentDigits_append (value : Nat) (bs : Bytes) :
    exponentDigits value (bs ++ rest) =
      ((exponentDigits value bs).1, (exponentDigits value bs).2 ++ rest) := by
  induction bs generalizing value with
  | nil =>
      cases rest with
      | nil => rfl
      | cons b rest => simp [exponentDigits, ended.digit?_eq_none]
  | cons b bs ih =>
      simp only [List.cons_append, exponentDigits]
      split
      · rfl
      · split
        · rw [ih]
        · rfl

theorem exponentMark?_append (bs : Bytes) :
    exponentMark? (bs ++ rest) = (exponentMark? bs).map (· ++ rest) := by
  cases bs with
  | nil => exact ended.exponentMark?_eq_none
  | cons b bs =>
      simp only [List.cons_append, exponentMark?]
      split <;> rfl

end Append

/-- Reads an exponent, from behind its sign. -/
def exponentValue (negative down : Bool) (significand : Nat) (exponent : Int) :
    Bytes → Reading Number
  | [] => faultAt .unfinishedValue []
  | b :: rest =>
    match digit? b with
    | none => faultAt .badNumber rest
    | some d =>
      match exponentDigits d rest with
      | (some e, rest) =>
        floatOfParts negative significand (if down then exponent - e else exponent + e) rest
      | (none, rest) =>
        if significand ≠ 0 ∧ ¬down then faultAt .numberTooLarge rest
        else .ok (signedZero negative, (countDigits rest).2)

theorem exponentPart_cons (negative : Bool) (significand : Nat) (exponent : Int) (b : UInt8)
    (rest : Bytes) :
    exponentPart negative significand exponent (b :: rest) =
      if b = plus then exponentValue negative false significand exponent rest
      else if b = minus then exponentValue negative true significand exponent rest
      else exponentValue negative false significand exponent (b :: rest) := by
  by_cases up : b = plus
  · subst up
    cases rest <;> rfl
  · by_cases down : b = minus
    · subst down
      cases rest <;> rfl
    · simp only [exponentPart, if_neg up, if_neg down]
      rfl

/-- What is read from the shorter run is read from the longer one, with more left behind it. -/
def ReadsOn (rest : Bytes) (short long : Reading α) : Prop :=
  ∀ a left, short = .ok (a, left) → long = .ok (a, left ++ rest)

section ReadsOn

variable {rest : Bytes}

theorem ReadsOn.faultAt (cause : Cause) (place : Bytes) (long : Reading α) :
    ReadsOn rest (Json.faultAt cause place) long := by
  rintro _ _ ⟨⟩

theorem floatOfParts_readsOn (negative : Bool) (significand : Nat) (exponent : Int) (bs : Bytes) :
    ReadsOn rest (floatOfParts negative significand exponent bs)
      (floatOfParts negative significand exponent (bs ++ rest)) := by
  unfold floatOfParts
  split
  · rintro _ _ ⟨⟩
    rfl
  · exact .faultAt _ _ _

theorem wholeNumber_readsOn (negative : Bool) (significand : Nat) (bs : Bytes) :
    ReadsOn rest (wholeNumber negative significand bs)
      (wholeNumber negative significand (bs ++ rest)) := by
  unfold wholeNumber
  split_ifs
  · rintro _ _ ⟨⟩
    rfl
  · exact floatOfParts_readsOn _ _ _ _
  · rintro _ _ ⟨⟩
    rfl
  · exact floatOfParts_readsOn _ _ _ _

variable (ended : Ended rest)
include ended

theorem exponentValue_readsOn (negative down : Bool) (significand : Nat) (exponent : Int)
    (bs : Bytes) :
    ReadsOn rest (exponentValue negative down significand exponent bs)
      (exponentValue negative down significand exponent (bs ++ rest)) := by
  cases bs with
  | nil => exact .faultAt _ _ _
  | cons b bs =>
      simp only [List.cons_append, exponentValue]
      cases digit? b with
      | none => exact .faultAt _ _ _
      | some d =>
          dsimp only
          rw [exponentDigits_append ended]
          match exponentDigits d bs with
          | (some e, left) => exact floatOfParts_readsOn _ _ _ _
          | (none, left) =>
            dsimp only
            split
            · exact .faultAt _ _ _
            · rintro _ _ ⟨⟩
              rw [countDigits_append ended]

theorem exponentPart_readsOn (negative : Bool) (significand : Nat) (exponent : Int) (bs : Bytes) :
    ReadsOn rest (exponentPart negative significand exponent bs)
      (exponentPart negative significand exponent (bs ++ rest)) := by
  cases bs with
  | nil => exact .faultAt _ _ _
  | cons b bs =>
      rw [List.cons_append, exponentPart_cons, exponentPart_cons]
      split_ifs
      · exact exponentValue_readsOn ended _ _ _ _ _
      · exact exponentValue_readsOn ended _ _ _ _ _
      · exact exponentValue_readsOn ended negative false significand exponent (b :: bs)

theorem fractionPart_readsOn (negative : Bool) (significand : Nat) (exponent : Int) (bs : Bytes) :
    ReadsOn rest (fractionPart negative significand exponent bs)
      (fractionPart negative significand exponent (bs ++ rest)) := by
  simp only [fractionPart, takeDigits_append ended, countDigits_append ended,
    exponentMark?_append ended]
  split
  · split
    · exact .faultAt _ _ _
    · exact .faultAt _ _ _
  · cases exponentMark? (countDigits (takeDigits significand bs).2.2).2 with
    | none => exact floatOfParts_readsOn _ _ _ _
    | some behind => exact exponentPart_readsOn ended _ _ _ _

theorem numberTail_readsOn (negative : Bool) (significand exponent : Nat) (bs : Bytes) :
    ReadsOn rest (numberTail negative significand exponent bs)
      (numberTail negative significand exponent (bs ++ rest)) := by
  have whole : ∀ bs, ReadsOn rest
      (if exponent = 0 then wholeNumber negative significand bs
        else floatOfParts negative significand exponent bs)
      (if exponent = 0 then wholeNumber negative significand (bs ++ rest)
        else floatOfParts negative significand exponent (bs ++ rest)) := by
    intro bs
    split
    · exact wholeNumber_readsOn _ _ _
    · exact floatOfParts_readsOn _ _ _ _
  cases bs with
  | nil =>
      cases rest with
      | nil => exact whole []
      | cons b rest =>
          simp only [numberTail, List.nil_append, if_neg ended.ne_point,
            ended.exponentMark?_eq_none]
          exact whole []
  | cons b bs =>
      simp only [List.cons_append, numberTail]
      rw [show exponentMark? (b :: (bs ++ rest)) = (exponentMark? (b :: bs)).map (· ++ rest) from
        exponentMark?_append ended (b :: bs)]
      split
      · exact fractionPart_readsOn ended _ _ _ _
      · cases exponentMark? (b :: bs) with
        | none => exact whole (b :: bs)
        | some behind => exact exponentPart_readsOn ended _ _ _ _

/-- A number is read in the same way whatever follows it. -/
theorem number_readsOn (negative : Bool) (bs : Bytes) :
    ReadsOn rest (number negative bs) (number negative (bs ++ rest)) := by
  cases bs with
  | nil => exact .faultAt _ _ _
  | cons b bs =>
      simp only [List.cons_append, number]
      match digit? b with
      | none => exact .faultAt _ _ _
      | some 0 =>
        cases bs with
        | nil =>
            cases rest with
            | nil => exact numberTail_readsOn ended negative 0 0 []
            | cons c rest =>
                simp only [List.nil_append, ended.digit?_eq_none, Option.isSome_none,
                  Bool.false_eq_true, if_false]
                exact numberTail_readsOn ended negative 0 0 []
        | cons c bs =>
            simp only [List.cons_append]
            split
            · exact .faultAt _ _ _
            · exact numberTail_readsOn ended negative 0 0 (c :: bs)
      | some (d + 1) =>
        simp only [takeDigits_append ended, countDigits_append ended]
        exact numberTail_readsOn ended _ _ _ _

end ReadsOn

/-! ## Digits -/

/-- Characters that are decimal digits. -/
def AllDigits (cs : List Char) : Prop := ∀ c ∈ cs, c.isDigit = true

theorem allDigits_toDigits (n : Nat) : AllDigits (Nat.toDigits 10 n) :=
  fun _ hc => Nat.isDigit_of_mem_toDigits (by decide) (by decide) hc

theorem bounds_of_isDigit {c : Char} (h : c.isDigit = true) :
    0x30 ≤ c.toNat ∧ c.toNat ≤ 0x39 := by
  simpa [Char.isDigit, UInt32.le_iff_toNat_le] using h

/-- A digit is one byte, which is read as the value of the digit. -/
theorem utf8EncodeChar_of_isDigit {c : Char} (h : c.isDigit = true) :
    ∃ b, String.utf8EncodeChar c = [b] ∧ digit? b = some (c.toNat - '0'.toNat) := by
  have bounds := bounds_of_isDigit h
  have number : (UInt8.ofNat c.toNat).toNat = c.toNat := UInt8.toNat_ofNat_of_lt' (by
    simp only [UInt8.size]
    omega)
  refine ⟨UInt8.ofNat c.toNat, Text.utf8EncodeChar_of_ascii (by omega), ?_⟩
  rw [digit?, if_pos, number]
  · rfl
  · rw [UInt8.le_iff_toNat_le, UInt8.le_iff_toNat_le, number]
    exact bounds

theorem ofDigitChars_le (cs : List Char) (init : Nat) : init ≤ Nat.ofDigitChars 10 cs init := by
  rw [Nat.ofDigitChars_eq_ofDigitChars_zero]
  exact Nat.le_add_right_of_le (Nat.le_mul_of_pos_left _ (Nat.pow_pos (by decide)))

section Digits

variable {cs : List Char} {rest : Bytes}

/-- Digits are all taken if their number stays below the limit. -/
theorem takeDigits_digits (digits : AllDigits cs) (ended : ∀ b ∈ rest.head?, digit? b = none)
    {significand : Nat} (fits : Nat.ofDigitChars 10 cs significand < significandLimit) :
    takeDigits significand (Text.encode cs ++ rest) =
      (Nat.ofDigitChars 10 cs significand, cs.length, rest) := by
  induction cs generalizing significand with
  | nil =>
      cases rest with
      | nil => rfl
      | cons b rest => simp [takeDigits, ended b rfl]
  | cons c cs ih =>
      obtain ⟨b, byte, value⟩ := utf8EncodeChar_of_isDigit (digits c (by simp))
      rw [Nat.ofDigitChars_cons] at fits ⊢
      have here := Nat.lt_of_le_of_lt (ofDigitChars_le cs _) fits
      have next := ih (fun c hc => digits c (List.mem_cons_of_mem _ hc)) fits
      rw [Text.encode_cons, byte, List.singleton_append, List.cons_append, takeDigits, value]
      dsimp only
      rw [if_pos here, next, List.length_cons]

theorem countDigits_of_ended (ended : ∀ b ∈ rest.head?, digit? b = none) :
    countDigits rest = (0, rest) := by
  cases rest with
  | nil => rfl
  | cons b rest => simp [countDigits, ended b rfl]

end Digits

/-- The first digit of a positive number is not zero. -/
theorem exists_toDigits_cons {n : Nat} (h : 0 < n) :
    ∃ c cs, Nat.toDigits 10 n = c :: cs ∧ c ≠ '0' := by
  induction n using Nat.strongRecOn with
  | ind n ih =>
      rcases Nat.lt_or_ge n 10 with small | large
      · refine ⟨n.digitChar, [], Nat.toDigits_of_lt_base small, ?_⟩
        have all : ∀ k < 10, 0 < k → k.digitChar ≠ '0' := by decide
        exact all n small h
      · obtain ⟨c, cs, first, other⟩ := ih (n / 10) (by omega) (by omega)
        exact ⟨c, cs ++ [(n % 10).digitChar],
          by rw [Nat.toDigits_of_base_le (by decide) large, first, List.cons_append], other⟩

/-- Digits without a zero at the front are read as their number. -/
theorem number_digits {c : Char} {cs : List Char} (digits : AllDigits (c :: cs)) (other : c ≠ '0')
    (fits : Nat.ofDigitChars 10 (c :: cs) 0 < significandLimit) (negative : Bool) {rest : Bytes}
    (ended : ∀ b ∈ rest.head?, digit? b = none) :
    number negative (Text.encode (c :: cs) ++ rest) =
      numberTail negative (Nat.ofDigitChars 10 (c :: cs) 0) 0 rest := by
  obtain ⟨b, byte, value⟩ := utf8EncodeChar_of_isDigit (digits c (by simp))
  obtain ⟨d, lead⟩ : ∃ d, c.toNat - '0'.toNat = d + 1 := by
    refine Nat.exists_eq_add_one_of_ne_zero fun least => other (Char.toNat_inj.1 ?_)
    have bounds := bounds_of_isDigit (digits c (by simp))
    have zero : '0'.toNat = 0x30 := rfl
    omega
  rw [Nat.ofDigitChars_cons, Nat.mul_zero, Nat.zero_add] at fits ⊢
  have taken : takeDigits (c.toNat - '0'.toNat) (Text.encode cs ++ rest) = _ :=
    takeDigits_digits (fun c hc => digits c (List.mem_cons_of_mem _ hc)) ended fits
  rw [lead] at taken
  rw [Text.encode_cons, byte, List.singleton_append, List.cons_append]
  simp only [number, value, lead, taken, countDigits_of_ended ended]

/-- So is zero and are numbers that are written without a needless zero at the front. -/
theorem number_toDigits {n : Nat} (fits : n < significandLimit) (negative : Bool) {rest : Bytes}
    (ended : ∀ b ∈ rest.head?, digit? b = none) :
    number negative (Text.encode (Nat.toDigits 10 n) ++ rest) = numberTail negative n 0 rest := by
  rcases Nat.eq_zero_or_pos n with rfl | positive
  · have zero : Text.encode (Nat.toDigits 10 0) = [Ascii.zero] := by decide
    rw [zero, List.singleton_append]
    simp only [number, show digit? Ascii.zero = some 0 by decide]
    cases rest with
    | nil => rfl
    | cons b rest => simp [ended b rfl]
  · obtain ⟨c, cs, form, other⟩ := exists_toDigits_cons positive
    have whole : Nat.ofDigitChars 10 (c :: cs) 0 = n := form ▸ Nat.ofDigitChars_ten_toDigits
    have read := number_digits (form ▸ allDigits_toDigits n) other (whole ▸ fits) negative ended
    rwa [whole, ← form] at read

/-! ## Whole numbers -/

theorem bytes_repr (n : Nat) : Text.bytes n.repr = Text.encode (Nat.toDigits 10 n) := by
  rw [Nat.repr_eq_ofList_toDigits, Text.bytes_ofList_eq_encode]

theorem Number.fits_of_lt {n : Nat} (fits : n < 2 ^ 64) :
    -2 ^ 63 ≤ (n : Int) ∧ (n : Int) < 2 ^ 64 := by
  omega

/-- What is written for a number without a sign. -/
theorem number_repr {n : Nat} (fits : n < 2 ^ 64) :
    number false (Text.bytes n.repr) = .ok (.integer n (Number.fits_of_lt fits), []) := by
  have read : number false (Text.encode (Nat.toDigits 10 n) ++ []) = _ :=
    number_toDigits fits false (by simp)
  rw [List.append_nil] at read
  rw [bytes_repr, read, numberTail, if_pos rfl, wholeNumber,
    dif_pos (show n < significandLimit from fits)]
  rfl

/-- What is written for a number behind a minus sign. -/
theorem number_repr_negative {n : Nat} (positive : 0 < n) (fits : n ≤ 2 ^ 63) :
    number true (Text.bytes n.repr) = .ok (.integer (-n) (by omega), []) := by
  have read : number true (Text.encode (Nat.toDigits 10 n) ++ []) = _ :=
    number_toDigits (by simp only [significandLimit]; omega) true (by simp)
  rw [List.append_nil] at read
  rw [bytes_repr, read, numberTail, if_pos rfl, wholeNumber, dif_pos ⟨positive, fits⟩]
  rfl

end FormSieve.Json
