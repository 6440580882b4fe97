import FormSieve.Proofs.Json.Numeral
import FormSieve.Proofs.Text.Blank
import FormSieve.Submission.PageLimit

/-!
# Page limits, written and read

A limit is read back from the decimal number that is written for it. More is accepted than is
written: a plus sign, zeros in front, and blanks around. What is accepted is exactly that, with a
number from 1 up to the greatest of 64 bits; no number is too long to be seen to be too large, and
none comes out smaller than it is.
-/

namespace FormSieve

namespace PageLimit

theorem not_isBlankChar_of_isDigit {c : Char} (h : c.isDigit = true) :
    Text.isBlankChar c = false := by
  have bounds := Json.bounds_of_isDigit h
  rw [← Bool.not_eq_true]
  simp only [Text.isBlankChar, Text.blankRanges, List.any_cons, List.any_nil, Bool.or_false,
    Bool.or_eq_true, Bool.and_eq_true, decide_eq_true_eq]
  omega

/-! ## Digits -/

/-- Digits and the number that they denote. -/
structure Denotes (digits : List Char) (n : Nat) : Prop where
  nonempty : digits ≠ []
  allDigits : Json.AllDigits digits
  value : Nat.ofDigitChars 10 digits 0 = n

theorem denotes_toDigits (n : Nat) : Denotes (Nat.toDigits 10 n) n :=
  ⟨Nat.toDigits_ne_nil, Json.allDigits_toDigits n, Nat.ofDigitChars_ten_toDigits⟩

theorem ofDigits?_eq_some_iff {digits : List Char} {n : UInt64} :
    ofDigits? digits = some n ↔ Denotes digits n.toNat := by
  rw [ofDigits?]
  split
  · next no =>
      rw [Bool.or_eq_true, List.isEmpty_iff, Bool.not_eq_true', List.all_eq_false] at no
      refine iff_of_false (fun read => nomatch read) fun denotes => no.elim denotes.nonempty ?_
      rintro ⟨c, member, other⟩
      exact other (denotes.allDigits c member)
  · next yes =>
      simp only [Bool.or_eq_true, List.isEmpty_iff, Bool.not_eq_true', not_or, Bool.not_eq_false,
        List.all_eq_true] at yes
      dsimp only
      split
      · next fits =>
          rw [Option.some_inj, ← UInt64.toNat_inj, UInt64.toNat_ofNat_of_lt' fits]
          exact ⟨fun value => ⟨yes.1, yes.2, value⟩, Denotes.value⟩
      · next large =>
          refine iff_of_false (fun read => nomatch read) fun denotes => large ?_
          rw [denotes.value]
          exact n.toNat_lt

/-! ## Digits in 64 bits -/

/-- Takes one more digit with numbers of 64 bits. -/
def takeDigit? (n : UInt64) (c : Char) : Option UInt64 :=
  let shifted := n * 10
  let sum := shifted + UInt64.ofNat (c.toNat - '0'.toNat)
  -- That the product is too large shows beforehand, and a sum that is too large has wrapped.
  if !c.isDigit || UInt64.ofNat (2 ^ 64 - 1) / 10 < n || sum < shifted then none else some sum

/-- One more digit is taken exactly if the number with it still fits. -/
theorem takeDigit?_eq_some_iff {n m : UInt64} {c : Char} :
    takeDigit? n c = some m ↔
      c.isDigit = true ∧ 10 * n.toNat + (c.toNat - '0'.toNat) = m.toNat := by
  by_cases digit : c.isDigit
  · have bounds := Json.bounds_of_isDigit digit
    have zero : '0'.toNat = 0x30 := rfl
    have fits := n.toNat_lt
    have fits' := m.toNat_lt
    have shifted : (n * 10).toNat = 10 * n.toNat % 2 ^ 64 := by
      rw [UInt64.toNat_mul, Nat.mul_comm]
      rfl
    have sum : (n * 10 + UInt64.ofNat (c.toNat - '0'.toNat)).toNat =
        (10 * n.toNat % 2 ^ 64 + (c.toNat - '0'.toNat)) % 2 ^ 64 := by
      rw [UInt64.toNat_add, shifted, UInt64.toNat_ofNat_of_lt' (by simp only [UInt64.size]; omega)]
    have most : UInt64.ofNat (2 ^ 64 - 1) / 10 < n ↔ 1844674407370955161 < n.toNat := by
      rw [UInt64.lt_iff_toNat_lt]
      rfl
    have wrapped : n * 10 + UInt64.ofNat (c.toNat - '0'.toNat) < n * 10 ↔ _ :=
      UInt64.lt_iff_toNat_lt
    rw [sum, shifted] at wrapped
    simp only [takeDigit?, digit, Bool.not_true, Bool.false_or, Bool.or_eq_true, decide_eq_true_eq,
      most, wrapped, true_and]
    split
    · next large =>
        refine iff_of_false (fun taken => nomatch taken) fun same => ?_
        omega
    · next small =>
        rw [Option.some_inj, ← UInt64.toNat_inj, sum]
        omega
  · simp [takeDigit?, digit]

/-- Digits are taken one after the other exactly if the number that they all make up fits. -/
theorem foldlM_takeDigit?_eq_some_iff {digits : List Char} {n m : UInt64} :
    digits.foldlM takeDigit? n = some m ↔
      Json.AllDigits digits ∧ Nat.ofDigitChars 10 digits n.toNat = m.toNat := by
  induction digits generalizing n with
  | nil => simp [Json.AllDigits, UInt64.toNat_inj]
  | cons c cs ih =>
      rw [List.foldlM_cons, Option.bind_eq_bind, Option.bind_eq_some_iff]
      simp only [takeDigit?_eq_some_iff, ih, Nat.ofDigitChars_cons]
      constructor
      · rintro ⟨k, ⟨digit, taken⟩, digits, value⟩
        exact ⟨List.forall_mem_cons.2 ⟨digit, digits⟩, taken ▸ value⟩
      · rintro ⟨digits, value⟩
        obtain ⟨digit, digits⟩ := List.forall_mem_cons.1 digits
        -- A number never gets smaller by more digits, so what fits in the end fits on the way.
        have grows := Json.ofDigitChars_le cs (10 * n.toNat + (c.toNat - '0'.toNat))
        have fits := Nat.lt_of_le_of_lt (value ▸ grows) m.toNat_lt
        refine ⟨UInt64.ofNat (10 * n.toNat + (c.toNat - '0'.toNat)), ⟨digit, ?_⟩, digits, ?_⟩
        · exact (UInt64.toNat_ofNat_of_lt' fits).symm
        · rw [UInt64.toNat_ofNat_of_lt' fits, value]

/-- Digits are read as by taking them one after the other with numbers of 64 bits. -/
theorem ofDigits?_eq_foldlM {digits : List Char} (h : digits ≠ []) :
    ofDigits? digits = digits.foldlM takeDigit? 0 := by
  refine Option.ext fun n => ?_
  rw [foldlM_takeDigit?_eq_some_iff, ofDigits?_eq_some_iff]
  exact ⟨fun denotes => ⟨denotes.allDigits, denotes.value⟩,
    fun ⟨digits, value⟩ => ⟨h, digits, value⟩⟩

/-! ## Limits -/

theorem unsigned?_eq_some_iff {cs : List Char} {n : UInt64} :
    unsigned? cs = some n ↔
      ∃ sign digits, cs = sign ++ digits ∧ (sign = [] ∨ sign = ['+']) ∧
        Denotes digits n.toNat := by
  rw [unsigned?.eq_def]
  split
  · next digits =>
      rw [ofDigits?_eq_some_iff]
      constructor
      · exact fun denotes => ⟨['+'], digits, rfl, .inr rfl, denotes⟩
      · rintro ⟨sign, digits', same, rfl | rfl, denotes⟩
        · -- A plus sign is no digit.
          rw [List.nil_append] at same
          exact absurd (denotes.allDigits '+' (same ▸ List.mem_cons_self)) (by decide)
        · obtain rfl : digits = digits' := (List.cons.inj same).2
          exact denotes
  · next other =>
      rw [ofDigits?_eq_some_iff]
      constructor
      · exact fun denotes => ⟨[], cs, rfl, .inl rfl, denotes⟩
      · rintro ⟨sign, digits, rfl, rfl | rfl, denotes⟩
        · exact denotes
        · exact absurd rfl (other digits)

/-- A number as it may be written for a limit: digits, behind a plus sign or not, with blanks around
them or not. -/
def IsWritten (s : String) (n : Nat) : Prop :=
  ∃ before sign digits after, s.toList = before ++ (sign ++ digits) ++ after ∧
    (∀ c ∈ before, Text.isBlankChar c = true) ∧ (∀ c ∈ after, Text.isBlankChar c = true) ∧
    (sign = [] ∨ sign = ['+']) ∧ Denotes digits n

/-- A number of 64 bits is read from the texts in which it may be written, and from no others. -/
theorem unsigned?_trimChars_eq_some_iff {s : String} {n : UInt64} :
    unsigned? (Text.trimChars s.toList) = some n ↔ IsWritten s n.toNat := by
  rw [unsigned?_eq_some_iff]
  constructor
  · rintro ⟨sign, digits, trimmed, signed, denotes⟩
    obtain ⟨before, after, parts, blank, blank'⟩ := Text.exists_trimChars s.toList
    exact ⟨before, sign, digits, after, trimmed ▸ parts, blank, blank', signed, denotes⟩
  · rintro ⟨before, sign, digits, after, parts, blank, blank', signed, denotes⟩
    have plain : ∀ c ∈ sign, Text.isBlankChar c = false := by
      rcases signed with rfl | rfl
      · exact List.forall_mem_nil _
      · exact List.forall_mem_singleton.2 (by decide)
    have free : ∀ c ∈ sign ++ digits, Text.isBlankChar c = false := fun c member =>
      (List.mem_append.1 member).elim (plain c) fun inside =>
        not_isBlankChar_of_isDigit (denotes.allDigits c inside)
    exact ⟨sign, digits, parts ▸ Text.trimChars_padded blank free blank', signed, denotes⟩

theorem ofUInt64?_eq_some_iff {n : UInt64} {limit : PageLimit} :
    ofUInt64? n = some limit ↔ n = limit.value := by
  constructor
  · intro taken
    rw [ofUInt64?] at taken
    split at taken
    · obtain rfl := Option.some.inj taken
      rfl
    · cases taken
  · rintro rfl
    exact ofUInt64?_value limit

theorem parse_eq_some_iff {s : String} {limit : PageLimit} :
    parse s = some limit ↔ IsWritten s limit.value.toNat := by
  rw [parse, Option.bind_eq_some_iff]
  simp only [ofUInt64?_eq_some_iff, exists_eq_right, unsigned?_trimChars_eq_some_iff]

theorem isWritten_padded {before after : List Char} {s : String} {n : Nat}
    (blank : ∀ c ∈ before, Text.isBlankChar c = true)
    (blank' : ∀ c ∈ after, Text.isBlankChar c = true)
    (text : s.toList = before ++ n.repr.toList ++ after) : IsWritten s n := by
  rw [Nat.repr_eq_ofList_toDigits, String.toList_ofList] at text
  exact ⟨before, [], _, after, text, blank, blank', .inl rfl, denotes_toDigits n⟩

/-- A limit is read back. -/
theorem parse_repr (limit : PageLimit) : parse limit.value.toNat.repr = some limit :=
  parse_eq_some_iff.2 <| isWritten_padded (List.forall_mem_nil _) (List.forall_mem_nil _)
    (List.append_nil _).symm

theorem exists_value {n : Nat} (positive : 0 < n) (fits : n < 2 ^ 64) :
    ∃ limit : PageLimit, limit.value.toNat = n := by
  have same : (UInt64.ofNat n).toNat = n := UInt64.toNat_ofNat_of_lt' fits
  refine ⟨⟨UInt64.ofNat n, ?_⟩, same⟩
  rw [UInt64.lt_iff_toNat_lt, same]
  exact positive

/-- The texts that are accepted are those of the numbers from 1 up to the greatest of 64 bits, and
the limit is that number. So no text is refused but for a number out of these bounds, none comes to
the limit zero, and what is written for a limit is read back with any blanks around it. Reading its
digits takes numbers of 64 bits only. -/
theorem parse_accepts_decimals (s : String) :
    (∀ limit, parse s = some limit ↔ IsWritten s limit.value.toNat) ∧
      (parse s = none ↔ ∀ n, IsWritten s n → n = 0 ∨ 2 ^ 64 ≤ n) ∧
      (∀ limit, parse s = some limit → limit.value ≠ 0) ∧
      (∀ n before after, 1 ≤ n → n < 2 ^ 64 → (∀ c ∈ before, Text.isBlankChar c = true) →
        (∀ c ∈ after, Text.isBlankChar c = true) → s.toList = before ++ n.repr.toList ++ after →
        ∃ limit, parse s = some limit ∧ limit.value.toNat = n) ∧
      ∀ digits, digits ≠ [] → ofDigits? digits = digits.foldlM takeDigit? 0 := by
  refine ⟨fun limit => parse_eq_some_iff, ?_, fun limit _ zero => ?_, ?_,
    fun digits => ofDigits?_eq_foldlM⟩
  · constructor
    · intro refused n written
      by_contra inside
      obtain ⟨limit, rfl⟩ := exists_value (n := n) (by omega) (by omega)
      exact nomatch refused.symm.trans (parse_eq_some_iff.2 written)
    · intro outside
      rw [Option.eq_none_iff_forall_ne_some]
      intro limit read
      have positive := UInt64.lt_iff_toNat_lt.1 limit.positive
      have fits := limit.value.toNat_lt
      rcases outside _ (parse_eq_some_iff.1 read) with zero | large
      · rw [zero] at positive
        exact absurd positive (Nat.lt_irrefl 0)
      · omega
  · exact absurd limit.positive (zero ▸ UInt64.lt_irrefl 0)
  · intro n before after positive fits blank blank' text
    obtain ⟨limit, rfl⟩ := exists_value positive fits
    exact ⟨limit, parse_eq_some_iff.2 (isWritten_padded blank blank' text), rfl⟩

/-- The greatest limit, once with a plus sign and zeros in front; the number behind it is too
large for 64 bits. -/
theorem parse_accepts_decimals_of_greatest :
    let limit : PageLimit := ⟨18446744073709551615, by decide⟩
    parse " +0018446744073709551615\u2003" = some limit ∧
      (∃ read, parse "\t18446744073709551615\n" = some read ∧ read.value.toNat = 2 ^ 64 - 1) ∧
      "18446744073709551616".toList.foldlM takeDigit? 0 = none := by
  intro limit
  obtain ⟨signed, -, -, -, inWords⟩ := parse_accepts_decimals " +0018446744073709551615\u2003"
  obtain ⟨-, -, -, padded, -⟩ := parse_accepts_decimals "\t18446744073709551615\n"
  have written : IsWritten " +0018446744073709551615\u2003" limit.value.toNat :=
    ⟨[' '], ['+'], "0018446744073709551615".toList, ['\u2003'], by decide,
      List.forall_mem_singleton.2 (by decide), List.forall_mem_singleton.2 (by decide), .inr rfl,
      ⟨by decide, List.all_eq_true.1 (by decide), by decide⟩⟩
  refine ⟨(signed limit).2 written, ?_, ?_⟩
  · have blank : ∀ c ∈ ['\t'], Text.isBlankChar c = true :=
      List.forall_mem_singleton.2 (by decide)
    have blank' : ∀ c ∈ ['\n'], Text.isBlankChar c = true :=
      List.forall_mem_singleton.2 (by decide)
    exact padded (2 ^ 64 - 1) ['\t'] ['\n'] (by decide) (by decide) blank blank' (by decide)
  · rw [← inWords _ (by decide)]
    rfl

end PageLimit

end FormSieve
