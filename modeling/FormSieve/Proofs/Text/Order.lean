import FormSieve.Text.Bytes
import Mathlib.Order.Compare

/-!
# The order of texts

Runs of bytes, and with them texts, are in a strict total order.
-/

namespace FormSieve

theorem Bytes.order_swap (a b : Bytes) : (order a b).swap = order b a := by
  fun_induction order a b with
  | case1 => rfl
  | case2 => rfl
  | case3 => rfl
  | case4 a as b bs less =>
    rw [order, if_neg (UInt8.lt_asymm less), if_pos less]
    rfl
  | case5 a as b bs _ greater =>
    rw [order, if_pos greater]
    rfl
  | case6 a as b bs less greater ih =>
    rw [order, if_neg greater, if_neg less, ih]

theorem Bytes.order_cons_eq_lt_iff {x y : UInt8} {xs ys : Bytes} :
    order (x :: xs) (y :: ys) = .lt ↔ x < y ∨ x = y ∧ order xs ys = .lt := by
  rw [order]
  split
  · next less => simp [less]
  · next less =>
    split
    · next greater =>
      have other : x ≠ y := fun same => UInt8.lt_irrefl _ (same ▸ greater)
      simp [less, other]
    · next greater =>
      obtain rfl := UInt8.le_antisymm (UInt8.not_lt.1 greater) (UInt8.not_lt.1 less)
      simp

theorem Bytes.order_lt_trans {a b c : Bytes} (h₁ : order a b = .lt) (h₂ : order b c = .lt) :
    order a c = .lt := by
  induction a generalizing b c with
  | nil =>
    cases c with
    | nil => cases b <;> simp [order] at h₂
    | cons z zs => rfl
  | cons x xs ih =>
    cases b with
    | nil => simp [order] at h₁
    | cons y ys =>
      cases c with
      | nil => simp [order] at h₂
      | cons z zs =>
        rw [order_cons_eq_lt_iff] at h₁ h₂ ⊢
        rcases h₁ with xy | ⟨rfl, h₁⟩
        · rcases h₂ with yz | ⟨rfl, -⟩
          · exact .inl (UInt8.lt_trans xy yz)
          · exact .inl xy
        · exact h₂.imp id (And.imp_right (ih h₁))

namespace Text

/-- One text before another. -/
def Before (a b : String) : Prop := order a b = .lt

theorem Before.trans {a b c : String} (h₁ : Before a b) (h₂ : Before b c) : Before a c :=
  Bytes.order_lt_trans h₁ h₂

theorem Before.ne {a b : String} (h : Before a b) : a ≠ b := by
  rintro rfl
  simp [Before] at h

theorem order_swap (a b : String) : (order a b).swap = order b a := Bytes.order_swap _ _

theorem order_eq_gt_iff {a b : String} : order a b = .gt ↔ Before b a := by
  rw [Before, order, order, ← Bytes.order_swap (bytes a), Ordering.swap_eq_lt]

instance : Std.TransCmp order where
  eq_swap {a b} := (order_swap b a).symm
  isLE_trans {a b c} first second := by
    rw [Ordering.isLE_iff_eq_lt_or_eq_eq] at first second ⊢
    rcases first with first | first
    · rcases second with second | second
      · exact .inl (Before.trans first second)
      · exact .inl (order_eq_iff.1 second ▸ first)
    · exact order_eq_iff.1 first ▸ second

end Text

end FormSieve
