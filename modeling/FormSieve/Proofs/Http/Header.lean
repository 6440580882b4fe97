import FormSieve.Http.Header
import FormSieve.Proofs.Text.Encoding
import Mathlib.Data.List.Basic

/-!
# Header values that are text

A header value of plain bytes is a text of the same bytes, and such a text may be sent as a header
value again.
-/

namespace FormSieve.Http

theorem isPlainByte_iff {b : UInt8} :
    isPlainByte b = true ↔ b.toNat = 0x09 ∨ 0x20 ≤ b.toNat ∧ b.toNat < 0x7F := by
  simp [isPlainByte, Ascii.tab, UInt8.le_iff_toNat_le, UInt8.lt_iff_toNat_lt, ← UInt8.toNat_inj]

theorem isValueByte_of_isPlainByte {b : UInt8} (h : isPlainByte b = true) :
    isValueByte b = true := by
  rw [isPlainByte_iff] at h
  simp only [isValueByte, Ascii.tab, UInt8.le_iff_toNat_le, ← UInt8.toNat_inj, ne_eq,
    Bool.or_eq_true, Bool.and_eq_true, decide_eq_true_eq, UInt8.reduceToNat]
  omega

/-- The text of a header value is written as the same value. -/
theorem bytes_of_plainText? {value : Bytes} {s : String} (h : plainText? value = some s) :
    value.all isPlainByte = true ∧ Text.bytes s = value := by
  rw [plainText?, Option.ite_none_right_eq_some] at h
  obtain ⟨plain, same⟩ := h
  refine ⟨plain, ?_⟩
  rw [← Option.some.inj same, Text.bytes_ofList_eq_encode, Text.encode, List.flatMap_map]
  refine (List.flatMap_congr fun b member => ?_).trans (List.flatMap_singleton' value)
  have isPlain := isPlainByte_iff.1 (List.all_eq_true.1 plain b member)
  exact Text.utf8EncodeChar_ofNat_of_ascii (by omega)

theorem isHeaderValue_of_plainText? {value : Bytes} {s : String} (h : plainText? value = some s) :
    isHeaderValue (Text.bytes s) = true := by
  obtain ⟨plain, same⟩ := bytes_of_plainText? h
  rw [same]
  exact List.all_eq_true.2 fun b member =>
    isValueByte_of_isPlainByte (List.all_eq_true.1 plain b member)

theorem exists_plainText?_iff {value : Bytes} :
    (∃ s, plainText? value = some s) ↔ value.all isPlainByte = true := by
  constructor
  · rintro ⟨s, read⟩
    exact (bytes_of_plainText? read).1
  · intro plain
    exact ⟨_, if_pos plain⟩

/-- Of some values, those of plain bytes are read as text. -/
theorem map_bytes_filterMap_plainText? (values : List Bytes) :
    (values.filterMap plainText?).map Text.bytes = values.filter (·.all isPlainByte) := by
  induction values with
  | nil => rfl
  | cons value values ih =>
      cases read : plainText? value with
      | none =>
          have other : ¬value.all isPlainByte = true := by
            intro plain
            obtain ⟨s, same⟩ := exists_plainText?_iff.2 plain
            exact nomatch read.symm.trans same
          rw [List.filterMap_cons_none read, ih, List.filter_cons, if_neg other]
      | some s =>
          obtain ⟨plain, same⟩ := bytes_of_plainText? read
          rw [List.filterMap_cons_some read, List.map_cons, same, ih, List.filter_cons,
            if_pos plain]

end FormSieve.Http
