import FormSieve.Proofs.Json.Numeral

/-!
# The numerals of doubles

What is written for a positive decimal, in either layout, is read as the digits and the exponent
of that decimal, except that a whole number in positional notation has a zero behind the point,
which is read as one more digit.
-/

namespace FormSieve.Json

open Ascii

/-- The decimal that is read from what is written for a decimal. -/
def FloatLayout.written (layout : FloatLayout) (d : Decimal) : Decimal :=
  let lead : Int := d.exponent + (Nat.toDigits 10 d.digits).length - 1
  if layout.smallest ≤ lead ∧ lead < layout.largest ∧ 0 ≤ d.exponent then
    ⟨d.digits * 10 ^ d.exponent.toNat * 10, -1⟩
  else d

/-! ## Parts of numerals -/

section Parts

variable {cs : List Char} {rest : Bytes} (negative : Bool) (significand : Nat) (exponent : Int)

/-- Digits of an exponent are all taken if their number stays below the limit. -/
theorem exponentDigits_digits (digits : AllDigits cs) {value : Nat}
    (fits : Nat.ofDigitChars 10 cs value < exponentLimit) :
    exponentDigits value (Text.encode cs) = (some (Nat.ofDigitChars 10 cs value), []) := by
  induction cs generalizing value with
  | nil => rfl
  | cons c cs ih =>
      obtain ⟨b, byte, number⟩ := utf8EncodeChar_of_isDigit (digits c (by simp))
      rw [Nat.ofDigitChars_cons] at fits ⊢
      have here := Nat.lt_of_le_of_lt (ofDigitChars_le cs _) fits
      rw [Text.encode_cons, byte, List.singleton_append, exponentDigits, number]
      dsimp only
      rw [if_pos here, ih (fun c hc => digits c (List.mem_cons_of_mem _ hc)) fits]

theorem exponentValue_toDigits (down : Bool) {k : Nat} (fits : k < exponentLimit) :
    exponentValue negative down significand exponent (Text.encode (Nat.toDigits 10 k)) =
      floatOfParts negative significand (if down then exponent - k else exponent + k) [] := by
  obtain ⟨c, cs, form⟩ := List.exists_cons_of_ne_nil (Nat.toDigits_ne_nil (n := k) (b := 10))
  have digits : AllDigits (c :: cs) := form ▸ allDigits_toDigits k
  have whole : Nat.ofDigitChars 10 cs (c.toNat - '0'.toNat) = k := by
    have all := Nat.ofDigitChars_ten_toDigits (n := k)
    rwa [form, Nat.ofDigitChars_cons, Nat.mul_zero, Nat.zero_add] at all
  obtain ⟨b, byte, value⟩ := utf8EncodeChar_of_isDigit (digits c (by simp))
  have taken := exponentDigits_digits (fun c hc => digits c (List.mem_cons_of_mem _ hc))
    (whole ▸ fits)
  rw [form, Text.encode_cons, byte, List.singleton_append]
  simp only [exponentValue, value, taken, whole]

/-- An exponent with its sign. -/
theorem exponentPart_print {lead : Int} (fits : lead.natAbs < exponentLimit) :
    exponentPart negative significand exponent
        (Text.encode ((if lead < 0 then '-' else '+') :: Nat.toDigits 10 lead.natAbs)) =
      floatOfParts negative significand (exponent + lead) [] := by
  rw [Text.encode_cons]
  split
  · next down =>
    change exponentPart _ _ _ (minus :: Text.encode (Nat.toDigits 10 lead.natAbs)) = _
    rw [exponentPart_cons, if_neg (by decide), if_pos rfl, exponentValue_toDigits _ _ _ _ fits,
      if_pos rfl]
    congr 1
    omega
  · next up =>
    change exponentPart _ _ _ (plus :: Text.encode (Nat.toDigits 10 lead.natAbs)) = _
    rw [exponentPart_cons, if_pos rfl, exponentValue_toDigits _ _ _ _ fits, if_neg (by decide)]
    congr 1
    omega

/-- A fraction without an exponent. -/
theorem fractionPart_digits (digits : AllDigits cs) (nonempty : cs ≠ [])
    (fits : Nat.ofDigitChars 10 cs significand < significandLimit) :
    fractionPart negative significand exponent (Text.encode cs) =
      floatOfParts negative (Nat.ofDigitChars 10 cs significand) (exponent - cs.length) [] := by
  have taken : takeDigits significand (Text.encode cs ++ []) = _ :=
    takeDigits_digits digits (by simp) fits
  rw [List.append_nil] at taken
  have count : cs.length ≠ 0 := by simpa using nonempty
  simp only [fractionPart, taken, countDigits, and_true, if_neg count, exponentMark?]

/-- A fraction in front of an exponent. -/
theorem fractionPart_exponent (digits : AllDigits cs) (nonempty : cs ≠ [])
    (fits : Nat.ofDigitChars 10 cs significand < significandLimit) (bs : Bytes) :
    fractionPart negative significand exponent (Text.encode cs ++ 0x65 :: bs) =
      exponentPart negative (Nat.ofDigitChars 10 cs significand) (exponent - cs.length) bs := by
  have ended : ∀ b ∈ (0x65 :: bs : Bytes).head?, digit? b = none := by
    rintro b ⟨⟩
    decide
  have taken := takeDigits_digits digits ended fits
  have count : cs.length ≠ 0 := by simpa using nonempty
  simp only [fractionPart, taken, countDigits_of_ended ended, and_true, if_neg count, exponentMark?,
    true_or, if_true]

/-- A fraction behind a zero. -/
theorem number_fraction (digits : AllDigits cs) (nonempty : cs ≠ [])
    (fits : Nat.ofDigitChars 10 cs 0 < significandLimit) :
    number negative (Text.encode ('0' :: '.' :: cs)) =
      floatOfParts negative (Nat.ofDigitChars 10 cs 0) (-(cs.length : Nat)) [] := by
  change fractionPart negative 0 0 (Text.encode cs) = _
  rw [fractionPart_digits negative 0 0 digits nonempty fits, Int.zero_sub]

end Parts

/-! ## Layouts -/

section Layouts

variable {n : Nat} (positive : 0 < n) (fits : n < significandLimit) (negative : Bool)

include positive in
/-- A whole number with a zero behind the point. -/
theorem number_whole {k : Nat} (fits' : n * 10 ^ k * 10 < significandLimit) :
    number negative (Text.encode (Nat.toDigits 10 n ++ zeros k ++ ['.', '0'])) =
      floatOfParts negative (n * 10 ^ k * 10) (-1) [] := by
  obtain ⟨c, cs, form, other⟩ := exists_toDigits_cons positive
  have digits : AllDigits (c :: (cs ++ zeros k)) := by
    rw [← List.cons_append, ← form]
    intro d hd
    rcases List.mem_append.1 hd with hd | hd
    · exact allDigits_toDigits n d hd
    · obtain ⟨-, rfl⟩ := List.mem_replicate.1 hd
      decide
  have whole : Nat.ofDigitChars 10 (c :: (cs ++ zeros k)) 0 = n * 10 ^ k := by
    rw [← List.cons_append, ← form, Nat.ofDigitChars_append, Nat.ofDigitChars_ten_toDigits, zeros,
      Nat.ofDigitChars_replicate_zero, Nat.mul_comm]
  have read : number negative (_ ++ [point, zero]) = _ :=
    number_digits digits other (by omega) negative (by rintro b ⟨⟩; rfl)
  rw [whole] at read
  rw [form, Text.encode_append, List.cons_append]
  refine read.trans ?_
  change fractionPart negative (n * 10 ^ k) 0 (Text.encode ['0']) = _
  have value : Nat.ofDigitChars 10 ['0'] (n * 10 ^ k) = n * 10 ^ k * 10 := by
    simp [Nat.ofDigitChars_cons, Nat.mul_comm]
  rw [fractionPart_digits negative _ 0 (by simp [AllDigits]) (by simp) (value ▸ fits'), value]
  rfl

include fits in
/-- Digits below one behind a point, with zeros in front of them. -/
theorem number_below (k : Nat) :
    number negative (Text.encode (['0', '.'] ++ zeros k ++ Nat.toDigits 10 n)) =
      floatOfParts negative n (-(k + (Nat.toDigits 10 n).length : Nat)) [] := by
  have digits : AllDigits (zeros k ++ Nat.toDigits 10 n) := by
    intro d hd
    rcases List.mem_append.1 hd with hd | hd
    · obtain ⟨-, rfl⟩ := List.mem_replicate.1 hd
      decide
    · exact allDigits_toDigits n d hd
  have whole : Nat.ofDigitChars 10 (zeros k ++ Nat.toDigits 10 n) 0 = n := by
    rw [Nat.ofDigitChars_append, zeros, Nat.ofDigitChars_replicate_zero, Nat.mul_zero,
      Nat.ofDigitChars_ten_toDigits]
  have nonempty : zeros k ++ Nat.toDigits 10 n ≠ [] := by simp [Nat.toDigits_ne_nil]
  have read := number_fraction negative digits nonempty (whole.symm ▸ fits)
  rw [whole, List.length_append, zeros, List.length_replicate] at read
  exact read

section Split

variable {c : Char} {front behind : List Char} (form : Nat.toDigits 10 n = c :: (front ++ behind))
include positive fits form

/-- Digits in front of a point. -/
theorem number_point (bs : Bytes) :
    number negative (Text.encode (c :: (front ++ '.' :: behind)) ++ bs) =
      fractionPart negative (Nat.ofDigitChars 10 (c :: front) 0) 0 (Text.encode behind ++ bs) := by
  obtain ⟨c', cs', form', other⟩ := exists_toDigits_cons positive
  obtain ⟨rfl, -⟩ := List.cons_eq_cons.1 (form'.symm.trans form)
  have digits : AllDigits (c' :: front) := fun d hd => by
    have all := allDigits_toDigits n
    rw [form, ← List.cons_append] at all
    exact all d (List.mem_append_left _ hd)
  have small : Nat.ofDigitChars 10 (c' :: front) 0 < significandLimit := by
    refine Nat.lt_of_le_of_lt (ofDigitChars_le behind _) ?_
    rwa [← Nat.ofDigitChars_append, List.cons_append, ← form, Nat.ofDigitChars_ten_toDigits]
  have read : number negative (_ ++ point :: (Text.encode behind ++ bs)) = _ :=
    number_digits digits other small negative (by rintro b ⟨⟩; decide)
  rw [← List.cons_append, Text.encode_append, Text.encode_cons, List.append_assoc]
  exact read

/-- Digits around a point. -/
theorem number_split (nonempty : behind ≠ []) :
    number negative (Text.encode (c :: (front ++ '.' :: behind))) =
      floatOfParts negative n (-(behind.length : Nat)) [] := by
  have digits : AllDigits behind := fun d hd =>
    allDigits_toDigits n d (form ▸ List.mem_cons_of_mem _ (List.mem_append_right _ hd))
  have whole : Nat.ofDigitChars 10 behind (Nat.ofDigitChars 10 (c :: front) 0) = n := by
    rw [← Nat.ofDigitChars_append, List.cons_append, ← form, Nat.ofDigitChars_ten_toDigits]
  have read := number_point positive fits negative form []
  rw [List.append_nil, List.append_nil,
    fractionPart_digits negative _ 0 digits nonempty (whole.symm ▸ fits), whole,
    Int.zero_sub] at read
  exact read

/-- Digits around a point, in front of an exponent. -/
theorem number_split_exponent (nonempty : behind ≠ []) (bs : Bytes) :
    number negative (Text.encode (c :: (front ++ '.' :: behind)) ++ 0x65 :: bs) =
      exponentPart negative n (-(behind.length : Nat)) bs := by
  have digits : AllDigits behind := fun d hd =>
    allDigits_toDigits n d (form ▸ List.mem_cons_of_mem _ (List.mem_append_right _ hd))
  have whole : Nat.ofDigitChars 10 behind (Nat.ofDigitChars 10 (c :: front) 0) = n := by
    rw [← Nat.ofDigitChars_append, List.cons_append, ← form, Nat.ofDigitChars_ten_toDigits]
  rw [number_point positive fits negative form,
    fractionPart_exponent negative _ 0 digits nonempty (whole.symm ▸ fits), whole, Int.zero_sub]

end Split

end Layouts

/-- A whole number in positional notation has at most sixteen digits. -/
theorem whole_lt {d : Decimal} (up : 0 ≤ d.exponent)
    (short : d.exponent + (Nat.toDigits 10 d.digits).length - 1 < 16) :
    d.digits * 10 ^ d.exponent.toNat < 10 ^ 16 := by
  have few : d.digits < 10 ^ (Nat.toDigits 10 d.digits).length :=
    (Nat.length_toDigits_le_iff (by decide) Nat.length_toDigits_pos).1 (Nat.le_refl _)
  calc d.digits * 10 ^ d.exponent.toNat
      < 10 ^ (Nat.toDigits 10 d.digits).length * 10 ^ d.exponent.toNat :=
        Nat.mul_lt_mul_of_pos_right few (Nat.pow_pos (by decide))
    _ = 10 ^ ((Nat.toDigits 10 d.digits).length + d.exponent.toNat) := (Nat.pow_add ..).symm
    _ ≤ 10 ^ 16 := Nat.pow_le_pow_right (by decide) (by omega)

/-- Digits with an exponent. -/
theorem number_exponent {n : Nat} (positive : 0 < n) (fits : n < significandLimit) {c : Char}
    {cs : List Char} (form : Nat.toDigits 10 n = c :: cs) {lead : Int}
    (near : lead.natAbs < exponentLimit) (negative : Bool) :
    number negative
        (Text.encode ((if cs.isEmpty then [c] else c :: '.' :: cs) ++
          'e' :: (if lead < 0 then '-' else '+') :: Nat.toDigits 10 lead.natAbs)) =
      floatOfParts negative n (lead - cs.length) [] := by
  have mark : ∀ tail, Text.encode ('e' :: tail) = 0x65 :: Text.encode tail := fun _ => rfl
  rw [Text.encode_append, mark]
  cases cs with
  | nil =>
      have all := allDigits_toDigits n
      have whole : Nat.ofDigitChars 10 [c] 0 = n := form ▸ Nat.ofDigitChars_ten_toDigits
      obtain ⟨c', cs', form', other⟩ := exists_toDigits_cons positive
      obtain ⟨rfl, -⟩ := List.cons_eq_cons.1 (form'.symm.trans form)
      refine (number_digits (form ▸ all) other (whole.symm ▸ fits) negative ?_).trans ?_
      · rintro b ⟨⟩
        decide
      rw [whole]
      change exponentPart negative n 0 _ = _
      rw [exponentPart_print negative n 0 near]
      simp
  | cons d cs =>
      rw [if_neg (by simp)]
      change Nat.toDigits 10 n = c :: ([] ++ d :: cs) at form
      refine (number_split_exponent positive fits negative form (by simp) _).trans ?_
      rw [exponentPart_print negative n _ near, Int.add_comm, Int.sub_eq_add_neg]

/-- What is written for a decimal is read as its parts. -/
theorem number_print {d : Decimal} (positive : 0 < d.digits) (few : d.digits ≤ 10 ^ 17)
    (near : d.exponent.natAbs ≤ 400) (negative : Bool) :
    number negative (Text.encode (floatLayout.print d)) =
      floatOfParts negative (floatLayout.written d).digits (floatLayout.written d).exponent [] := by
  have fits : d.digits < significandLimit := Nat.lt_of_le_of_lt few (by decide)
  obtain ⟨n, e⟩ := d
  dsimp only at positive few near fits
  have short : (Nat.toDigits 10 n).length ≤ 18 :=
    (Nat.length_toDigits_le_iff (by decide) (by decide)).2 (Nat.lt_of_le_of_lt few (by decide))
  obtain ⟨c, cs, form, -⟩ := exists_toDigits_cons positive
  have length : (Nat.toDigits 10 n).length = cs.length + 1 := by rw [form, List.length_cons]
  have written : floatLayout.written ⟨n, e⟩ =
      if floatLayout.smallest ≤ e + (Nat.toDigits 10 n).length - 1 ∧
          e + (Nat.toDigits 10 n).length - 1 < floatLayout.largest ∧ 0 ≤ e then
        ⟨n * 10 ^ e.toNat * 10, -1⟩
      else ⟨n, e⟩ := rfl
  have small := fun up => whole_lt (d := ⟨n, e⟩) up
  rw [written, FloatLayout.print]
  dsimp only at small ⊢
  generalize hlead : e + (Nat.toDigits 10 n).length - 1 = lead at *
  by_cases positional : floatLayout.smallest ≤ lead ∧ lead < floatLayout.largest
  · rw [if_pos positional]
    by_cases up : 0 ≤ e
    · have small := small up positional.2
      rw [if_pos up, if_pos ⟨positional.1, positional.2, up⟩]
      exact number_whole positive negative (Nat.lt_of_lt_of_le
        (Nat.mul_lt_mul_of_pos_right small (by decide)) (by decide))
    · rw [if_neg up, if_neg fun h : _ ∧ _ ∧ 0 ≤ e => up h.2.2]
      by_cases above : 0 ≤ lead
      · obtain ⟨k, rfl⟩ := Int.eq_ofNat_of_zero_le above
        have split : Nat.toDigits 10 n = c :: (cs.take k ++ cs.drop k) := by
          rw [form, List.take_append_drop]
        rw [if_pos above, Int.toNat_natCast, form, List.take_succ_cons, List.drop_succ_cons,
          List.cons_append, number_split positive fits negative split (by simp; omega),
          List.length_drop]
        congr 1
        dsimp only
        omega
      · rw [if_neg above, number_below fits negative]
        congr 1
        dsimp only
        omega
  · rw [if_neg positional, if_neg fun h : _ ∧ _ ∧ 0 ≤ e => positional ⟨h.1, h.2.1⟩, form]
    refine (number_exponent positive fits form (by rw [exponentLimit]; omega) negative).trans ?_
    congr 1
    dsimp only
    omega

end FormSieve.Json
