import FormSieve.Filter.Clause
import FormSieve.Proofs.Json.Form
import FormSieve.Proofs.Log
import FormSieve.Proofs.Text.Encoding

/-!
# The order of code points

Texts are compared by their bytes. UTF-8 writes a code point as a number to base 64: the first byte
has its highest digit and tells how many digits follow, and more digits have a greater first byte.
So the first byte in which two characters differ decides for them as their numbers do, and comparing
the bytes of texts comes to the same as comparing their code points one after the other.
-/

namespace FormSieve

/-! ## Runs of bytes -/

namespace Bytes

/-- The order is the lexicographic one. -/
theorem order_eq_compare (a b : Bytes) : order a b = compare a b := by
  fun_induction order a b with
  | case1 => rfl
  | case2 => rfl
  | case3 => rfl
  | case4 x xs y ys less =>
      rw [List.compare_cons_cons, Std.compare_eq_lt.2 less]
      rfl
  | case5 x xs y ys _ greater =>
      rw [List.compare_cons_cons, Std.compare_eq_gt.2 greater]
      rfl
  | case6 x xs y ys less greater ih =>
      obtain rfl := UInt8.le_antisymm (UInt8.not_lt.1 greater) (UInt8.not_lt.1 less)
      rw [List.compare_cons_cons, Std.ReflOrd.compare_self, ih]
      rfl

/-- A common beginning does not count. -/
theorem order_append (front a b : Bytes) : order (front ++ a) (front ++ b) = order a b := by
  induction front with
  | nil => rfl
  | cons x front ih => simpa [order] using ih

end Bytes

namespace Text

/-! ## Characters -/

/-- The lowest digits of a number to base 64, as the bytes that continue a sequence. -/
def continuation : Nat → Nat → Bytes
  | 0, _ => []
  | k + 1, n => UInt8.ofNat (n / 64 ^ k % 64 + 0x80) :: continuation k n

/-- `ByteForm k mark n`: the number `n` takes `k` continuing bytes, and `mark` is the least first
byte of the numbers that do. -/
inductive ByteForm : Nat → Nat → Nat → Prop
  | one {n : Nat} (below : n < 0x80) : ByteForm 0 0 n
  | two {n : Nat} (least : 0x80 ≤ n) (below : n < 0x800) : ByteForm 1 0xC0 n
  | three {n : Nat} (least : 0x800 ≤ n) (below : n < 0x10000) : ByteForm 2 0xE0 n
  | four {n : Nat} (least : 0x10000 ≤ n) (below : n < 0x110000) : ByteForm 3 0xF0 n

theorem toNat_lt (c : Char) : c.toNat < 0x110000 := by
  have valid : c.toNat.isValidChar := c.valid
  rcases valid with low | ⟨-, high⟩
  · omega
  · exact high

/-- A character is written in the form of its number. -/
theorem exists_byteForm (c : Char) :
    ∃ k mark, ByteForm k mark c.toNat ∧
      String.utf8EncodeChar c =
        UInt8.ofNat (c.toNat / 64 ^ k + mark) :: continuation k c.toNat := by
  have largest := toNat_lt c
  simp only [String.utf8EncodeChar, Char.toNat_val]
  split_ifs with one two three
  · exact ⟨0, 0, .one (by omega), by simp [continuation]⟩
  · refine ⟨1, 0xC0, .two (by omega) (by omega), ?_⟩
    rw [Nat.mod_eq_of_lt (show c.toNat / 64 < 32 by omega)]
    simp [continuation]
  · refine ⟨2, 0xE0, .three (by omega) (by omega), ?_⟩
    rw [Nat.mod_eq_of_lt (show c.toNat / 4096 < 16 by omega)]
    simp [continuation]
  · refine ⟨3, 0xF0, .four (by omega) (by omega), ?_⟩
    rw [Nat.mod_eq_of_lt (show c.toNat / 262144 < 8 by omega)]
    simp [continuation]

section ByteForm

variable {k k' mark mark' m n : Nat}

theorem ByteForm.lead_lt (form : ByteForm k mark n) : n / 64 ^ k + mark < 256 := by
  cases form <;> omega

/-- The greater of two numbers has the greater first byte, or both have the same form. -/
theorem ByteForm.lead_lt_or_same (form : ByteForm k mark m) (form' : ByteForm k' mark' n)
    (h : m < n) : m / 64 ^ k + mark < n / 64 ^ k' + mark' ∨ k = k' ∧ mark = mark' := by
  cases form <;> cases form' <;> omega

/-- A number with smaller lowest digits has the smaller bytes. -/
theorem order_continuation (h : m % 64 ^ k < n % 64 ^ k) (a b : Bytes) :
    Bytes.order (continuation k m ++ a) (continuation k n ++ b) = .lt := by
  induction k with
  | zero => simp [Nat.mod_one] at h
  | succ k ih =>
      rw [Nat.mod_pow_succ, Nat.mod_pow_succ] at h
      have lower := Nat.mod_lt m (Nat.pow_pos (n := k) (a := 64) (by decide))
      have lower' := Nat.mod_lt n (Nat.pow_pos (n := k) (a := 64) (by decide))
      rw [continuation, continuation, List.cons_append, List.cons_append,
        Bytes.order_cons_eq_lt_iff, UInt8.lt_iff_toNat_lt, ← UInt8.toNat_inj]
      simp only [UInt8.toNat_ofNat']
      rcases Nat.lt_trichotomy (m / 64 ^ k % 64) (n / 64 ^ k % 64) with less | same | greater
      · exact .inl (by omega)
      · rw [same, Nat.add_lt_add_iff_right] at h
        exact .inr ⟨by rw [same], ih h⟩
      · have above := Nat.mul_le_mul_left (64 ^ k) greater
        rw [Nat.mul_succ] at above
        omega

/-- The character of the smaller number comes first, whatever follows. -/
theorem order_utf8EncodeChar {c d : Char} (h : c.toNat < d.toNat) (a b : Bytes) :
    Bytes.order (String.utf8EncodeChar c ++ a) (String.utf8EncodeChar d ++ b) = .lt := by
  obtain ⟨k, mark, form, encoded⟩ := exists_byteForm c
  obtain ⟨k', mark', form', encoded'⟩ := exists_byteForm d
  have lead := form.lead_lt
  have lead' := form'.lead_lt
  rw [encoded, encoded', List.cons_append, List.cons_append, Bytes.order_cons_eq_lt_iff,
    UInt8.lt_iff_toNat_lt, ← UInt8.toNat_inj]
  simp only [UInt8.toNat_ofNat', Nat.mod_eq_of_lt lead, Nat.mod_eq_of_lt lead']
  rcases form.lead_lt_or_same form' h with less | ⟨rfl, rfl⟩
  · exact .inl less
  · -- The numbers differ in the highest digit or in those behind it.
    rcases Nat.lt_or_eq_of_le (Nat.div_le_div_right (c := 64 ^ k) (Nat.le_of_lt h)) with less | same
    · exact .inl (Nat.add_lt_add_right less mark)
    · refine .inr ⟨by rw [same], order_continuation ?_ a b⟩
      have whole := Nat.div_add_mod c.toNat (64 ^ k)
      have whole' := Nat.div_add_mod d.toNat (64 ^ k)
      rw [same] at whole
      omega

end ByteForm

/-! ## Texts -/

/-- The code points of a text. -/
def codePoints (s : String) : List Nat := s.toList.map Char.toNat

theorem order_encode (cs ds : List Char) :
    Bytes.order (encode cs) (encode ds) = compare (cs.map Char.toNat) (ds.map Char.toNat) := by
  induction cs generalizing ds with
  | nil =>
      cases ds with
      | nil => rfl
      | cons d ds =>
          obtain ⟨k, mark, -, encoded⟩ := exists_byteForm d
          rw [encode_cons, encoded]
          rfl
  | cons c cs ih =>
      cases ds with
      | nil =>
          obtain ⟨k, mark, -, encoded⟩ := exists_byteForm c
          rw [encode_cons, encoded]
          rfl
      | cons d ds =>
          rw [List.map_cons, List.map_cons, List.compare_cons_cons, encode_cons, encode_cons]
          rcases Nat.lt_trichotomy c.toNat d.toNat with less | same | greater
          · rw [order_utf8EncodeChar less, Nat.compare_eq_lt.2 less]
            rfl
          · obtain rfl := Char.toNat_inj.1 same
            rw [Bytes.order_append, ih, Std.ReflOrd.compare_self]
            rfl
          · rw [← Bytes.order_swap, order_utf8EncodeChar greater, Nat.compare_eq_gt.2 greater]
            rfl

/-- Texts are in the order of their code points. -/
theorem order_eq_compare_codePoints (a b : String) :
    order a b = compare (codePoints a) (codePoints b) := by
  rw [order, bytes_eq_encode, bytes_eq_encode, order_encode]
  rfl

/-- A text comes before all that it begins. -/
theorem before_append {more : String} (h : more ≠ "") (s : String) : Before s (s ++ more) := by
  have rest : bytes more ≠ [] := fun empty => h (bytes_inj.1 empty)
  obtain ⟨b, left, more⟩ := List.exists_cons_of_ne_nil rest
  have order := Bytes.order_append (bytes s) [] (b :: left)
  rw [List.append_nil] at order
  rw [Before, Text.order, bytes_append, more, order]
  rfl

/-- Comparing texts by their bytes is comparing them by their code points. It is a total order in
which a text stands level with itself only and comes before all that it begins. Texts as values,
the fields of log lines and the members of objects are in this order. -/
theorem order_by_codePoints (a b c : String) :
    order a b = compare (bytes a) (bytes b) ∧
      order a b = compare (codePoints a) (codePoints b) ∧
      (order a b = .eq ↔ a = b) ∧
      (order a b).swap = order b a ∧
      ((order a b).isLE ∨ (order b a).isLE) ∧
      ((order a b).isLE → (order b c).isLE → (order a c).isLE) ∧
      (b ≠ "" → order a (a ++ b) = .lt) ∧
      Target.order (.text a) (.text b) = some (compare (codePoints a) (codePoints b)) ∧
      (∀ line : LogLine, line.sortedFields.Pairwise fun f g =>
        (compare (codePoints f.1) (codePoints g.1)).isLE) ∧
      ∀ members : Json.Members, (Json.Members.ofWritten members).Pairwise fun m n =>
        compare (codePoints m.1) (codePoints n.1) = .lt := by
  have same := order_eq_compare_codePoints
  refine ⟨Bytes.order_eq_compare _ _, same a b, order_eq_iff, order_swap a b, ?_,
    Std.TransCmp.isLE_trans, fun more => before_append more a, ?_, fun line => ?_,
    fun members => ?_⟩
  · rw [← order_swap a b]
    cases order a b <;> decide
  · rw [Target.order, same]
  · refine (LogLine.ascending_sortedFields line).imp fun {f g} notAfter => ?_
    rw [← same]
    exact Ordering.isLE_iff_ne_gt.2 notAfter
  · refine (Json.Members.ascending_ofWritten members).imp fun {m n} before => ?_
    rw [← same]
    exact before

/-- A character of three bytes, one of four, and two texts that they begin. -/
theorem order_by_codePoints_of_halfwidth :
    order "\uff61" "😀" = .lt ∧ (order "\uff61" "😀!").isLE ∧
      order "\uff61" ("\uff61" ++ "😀") = .lt := by
  obtain ⟨-, points, -, -, -, trans, beginning, -⟩ := order_by_codePoints "\uff61" "😀" "😀!"
  exact ⟨points.trans (by decide), trans (by decide) (by decide), beginning (by decide)⟩

end Text

end FormSieve
