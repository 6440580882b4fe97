import FormSieve.Proofs.Text.Encoding
import FormSieve.Text.Utf8

/-!
# Reading well-formed bytes as text

Reading bytes as text whatever they are gives a text back from its encoding: the first byte of a
character tells how many follow it, and leaves the second one a range in which it lies.
-/

namespace FormSieve.Text

/-! ## What a first byte begins -/

theorem Lead.of_one {n : Nat} (h : n < 0x80) :
    Lead.of (UInt8.ofNat n) = .single (Char.ofNat n) := by
  have number : (UInt8.ofNat n).toNat = n := by
    rw [UInt8.toNat_ofNat']
    omega
  rw [Lead.of, if_pos, number]
  rw [UInt8.lt_iff_toNat_lt, number]
  exact h

theorem Lead.of_two {n : Nat} (low : 0x80 ≤ n) (high : n < 0x800) :
    Lead.of (UInt8.ofNat (n / 64 % 32 + 192)) = .sequence ⟨n / 64, 1, 0x80, 0xBF⟩ := by
  have number : (UInt8.ofNat (n / 64 % 32 + 192)).toNat = n / 64 + 192 := by
    rw [UInt8.toNat_ofNat']
    omega
  rw [Lead.of, if_neg, if_neg, if_pos, number, Nat.add_sub_cancel]
  all_goals
    simp only [UInt8.lt_iff_toNat_lt, number, UInt8.reduceToNat]
    omega

theorem Lead.exists_of_three {n : Nat} (valid : n.isValidChar) (low : 0x800 ≤ n)
    (high : n < 0x10000) :
    ∃ first last,
      Lead.of (UInt8.ofNat (n / 4096 % 16 + 224)) = .sequence ⟨n / 4096, 2, first, last⟩ ∧
      first.toNat ≤ n / 64 % 64 + 128 ∧ n / 64 % 64 + 128 ≤ last.toNat := by
  have number : (UInt8.ofNat (n / 4096 % 16 + 224)).toNat = n / 4096 + 224 := by
    rw [UInt8.toNat_ofNat']
    omega
  generalize UInt8.ofNat (n / 4096 % 16 + 224) = b at number ⊢
  by_cases zero : n / 4096 = 0
  · obtain rfl : b = 0xE0 := UInt8.toNat_inj.1 (by rw [number, zero]; rfl)
    refine ⟨0xA0, 0xBF, by rw [zero]; rfl, ?_, ?_⟩
    all_goals
      simp only [UInt8.reduceToNat]
      omega
  by_cases surrogates : n / 4096 = 0xD
  · obtain rfl : b = 0xED := UInt8.toNat_inj.1 (by rw [number, surrogates]; rfl)
    refine ⟨0x80, 0x9F, by rw [surrogates]; rfl, ?_, ?_⟩
    · simp only [UInt8.reduceToNat]
      omega
    · simp only [UInt8.reduceToNat]
      rcases valid with early | late <;> omega
  · refine ⟨0x80, 0xBF, ?_, ?_, ?_⟩
    · rw [Lead.of, if_neg, if_neg, if_neg, if_neg, if_neg, if_pos, number, Nat.add_sub_cancel]
      all_goals
        simp only [UInt8.lt_iff_toNat_lt, ← UInt8.toNat_inj, number, UInt8.reduceToNat]
        omega
    all_goals
      simp only [UInt8.reduceToNat]
      omega

theorem Lead.exists_of_four {n : Nat} (low : 0x10000 ≤ n) (high : n < 0x110000) :
    ∃ first last,
      Lead.of (UInt8.ofNat (n / 262144 % 8 + 240)) = .sequence ⟨n / 262144, 3, first, last⟩ ∧
      first.toNat ≤ n / 4096 % 64 + 128 ∧ n / 4096 % 64 + 128 ≤ last.toNat := by
  have number : (UInt8.ofNat (n / 262144 % 8 + 240)).toNat = n / 262144 + 240 := by
    rw [UInt8.toNat_ofNat']
    omega
  generalize UInt8.ofNat (n / 262144 % 8 + 240) = b at number ⊢
  by_cases zero : n / 262144 = 0
  · obtain rfl : b = 0xF0 := UInt8.toNat_inj.1 (by rw [number, zero]; rfl)
    refine ⟨0x90, 0xBF, by rw [zero]; rfl, ?_, ?_⟩
    all_goals
      simp only [UInt8.reduceToNat]
      omega
  by_cases last : n / 262144 = 4
  · obtain rfl : b = 0xF4 := UInt8.toNat_inj.1 (by rw [number, last]; rfl)
    refine ⟨0x80, 0x8F, by rw [last]; rfl, ?_, ?_⟩
    all_goals
      simp only [UInt8.reduceToNat]
      omega
  · refine ⟨0x80, 0xBF, ?_, ?_, ?_⟩
    · rw [Lead.of, if_neg, if_neg, if_neg, if_neg, if_neg, if_neg, if_neg, if_pos, number,
        Nat.add_sub_cancel]
      all_goals
        simp only [UInt8.lt_iff_toNat_lt, ← UInt8.toNat_inj, number, UInt8.reduceToNat]
        omega
    all_goals
      simp only [UInt8.reduceToNat]
      omega

/-! ## Whole characters -/

theorem lossyChars_lead {b : UInt8} {s : Sequence} (h : Lead.of b = .sequence s) (rest : Bytes) :
    lossyChars none (b :: rest) = lossyChars (some s) rest := by
  rw [lossyChars, h]

/-- A byte that lies in the range left for it carries six bits. -/
theorem lossyChars_tail {bits missing k : Nat} {low high : UInt8} (rest : Bytes) (six : k < 64)
    (above : low.toNat ≤ k + 128) (below : k + 128 ≤ high.toNat) :
    lossyChars (some ⟨bits, missing, low, high⟩) (UInt8.ofNat (k + 128) :: rest) =
      if missing ≤ 1 then Char.ofNat (bits * 64 + k) :: lossyChars none rest
      else lossyChars (some ⟨bits * 64 + k, missing - 1, 0x80, 0xBF⟩) rest := by
  have number : (UInt8.ofNat (k + 128)).toNat = k + 128 := by
    rw [UInt8.toNat_ofNat']
    omega
  have within : low ≤ UInt8.ofNat (k + 128) ∧ UInt8.ofNat (k + 128) ≤ high := by
    rw [UInt8.le_iff_toNat_le, UInt8.le_iff_toNat_le, number]
    exact ⟨above, below⟩
  rw [lossyChars, if_pos within, number, Nat.add_sub_cancel]

/-- After the second byte the range is always the same. -/
theorem lossyChars_later {bits missing k : Nat} (rest : Bytes) (six : k < 64) :
    lossyChars (some ⟨bits, missing, 0x80, 0xBF⟩) (UInt8.ofNat (k + 128) :: rest) =
      if missing ≤ 1 then Char.ofNat (bits * 64 + k) :: lossyChars none rest
      else lossyChars (some ⟨bits * 64 + k, missing - 1, 0x80, 0xBF⟩) rest := by
  refine lossyChars_tail rest six ?_ ?_ <;> simp only [UInt8.reduceToNat] <;> omega

theorem lossyChars_utf8EncodeChar (c : Char) (rest : Bytes) :
    lossyChars none (String.utf8EncodeChar c ++ rest) = c :: lossyChars none rest := by
  have valid : c.val.toNat.isValidChar := c.valid
  have same : Char.ofNat c.val.toNat = c := Char.ofNat_toNat c
  rw [String.utf8EncodeChar]
  generalize c.val.toNat = n at valid same ⊢
  have six (m : Nat) : m % 64 < 64 := Nat.mod_lt _ (by decide)
  split_ifs with one two three
  · rw [List.singleton_append, lossyChars, Lead.of_one (by omega), same]
  · have parts : n / 64 * 64 + n % 64 = n := by omega
    simp only [List.cons_append, List.nil_append]
    rw [lossyChars_lead (Lead.of_two (by omega) (by omega)), lossyChars_later _ (six _),
      if_pos (by decide), parts, same]
  · obtain ⟨first, last, lead, above, below⟩ := Lead.exists_of_three valid (by omega) (by omega)
    have parts : (n / 4096 * 64 + n / 64 % 64) * 64 + n % 64 = n := by omega
    simp only [List.cons_append, List.nil_append]
    rw [lossyChars_lead lead, lossyChars_tail _ (six _) above below, if_neg (by decide),
      lossyChars_later _ (six _), if_pos (by decide), parts, same]
  · have bounded : n < 0x110000 := valid.elim (fun early => by omega) (·.2)
    obtain ⟨first, last, lead, above, below⟩ := Lead.exists_of_four (by omega) bounded
    have parts : ((n / 262144 * 64 + n / 4096 % 64) * 64 + n / 64 % 64) * 64 + n % 64 = n := by
      omega
    simp only [List.cons_append, List.nil_append]
    rw [lossyChars_lead lead, lossyChars_tail _ (six _) above below, if_neg (by decide),
      lossyChars_later _ (six _), if_neg (by decide), lossyChars_later _ (six _),
      if_pos (by decide), parts, same]

theorem lossyChars_encode (cs : List Char) : lossyChars none (encode cs) = cs := by
  induction cs with
  | nil => rfl
  | cons c cs ih => rw [encode_cons, lossyChars_utf8EncodeChar, ih]

/-- A text is read back from its bytes. -/
@[simp] theorem lossy_bytes (s : String) : lossy (bytes s) = s := by
  rw [lossy, bytes_eq_encode, lossyChars_encode, String.ofList_toList]

end FormSieve.Text
