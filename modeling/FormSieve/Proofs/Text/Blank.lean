import FormSieve.Text.Blank
import Mathlib.Data.List.TakeWhile

/-!
# Trimming

Trimming takes the blanks off both ends of a text. It takes nothing off a text without blanks, and
everything off a text that has nothing but blanks, and off no other.
-/

namespace FormSieve.Text

theorem dropWhile_of_free {cs : List Char} (free : ∀ c ∈ cs, isBlankChar c = false) :
    cs.dropWhile isBlankChar = cs := by
  cases cs with
  | nil => rfl
  | cons c cs => exact List.dropWhile_cons_of_neg (by simp [free c List.mem_cons_self])

theorem trimChars_eq_nil_iff {cs : List Char} :
    trimChars cs = [] ↔ ∀ c ∈ cs, isBlankChar c = true := by
  rw [trimChars, List.reverse_eq_nil_iff, List.dropWhile_eq_nil_iff]
  constructor
  · intro blank
    cases left : cs.dropWhile isBlankChar with
    | nil => exact List.dropWhile_eq_nil_iff.1 left
    | cons c rest =>
        -- What is left begins with a character that is not blank.
        have first := List.head?_dropWhile_not isBlankChar cs
        rw [left] at first
        have blank : isBlankChar c = true := blank c (by simp [left])
        exact nomatch blank.symm.trans first
  · intro blank c member
    exact blank c (List.dropWhile_sublist _ |>.mem (List.mem_reverse.1 member))

/-- Trimming takes nothing but blanks off a text. -/
theorem exists_trimChars (cs : List Char) :
    ∃ before after, cs = before ++ trimChars cs ++ after ∧
      (∀ c ∈ before, isBlankChar c = true) ∧ ∀ c ∈ after, isBlankChar c = true := by
  let kept := (cs.dropWhile isBlankChar).reverse
  have blank {cs : List Char} : ∀ c ∈ cs.takeWhile isBlankChar, isBlankChar c = true :=
    List.all_eq_true.1 List.all_takeWhile
  refine ⟨cs.takeWhile isBlankChar, (kept.takeWhile isBlankChar).reverse, ?_, blank,
    fun c member => blank c (List.mem_reverse.1 member)⟩
  have behind : cs.dropWhile isBlankChar =
      trimChars cs ++ (kept.takeWhile isBlankChar).reverse := by
    rw [trimChars, ← List.reverse_append, List.takeWhile_append_dropWhile, List.reverse_reverse]
  rw [List.append_assoc, ← behind, List.takeWhile_append_dropWhile]

/-- Trimming takes off all blanks around a text that has none. -/
theorem trimChars_padded {before cs after : List Char}
    (blank : ∀ c ∈ before, isBlankChar c = true) (free : ∀ c ∈ cs, isBlankChar c = false)
    (blank' : ∀ c ∈ after, isBlankChar c = true) : trimChars (before ++ cs ++ after) = cs := by
  cases cs with
  | nil =>
      rw [List.append_nil, trimChars_eq_nil_iff]
      exact fun c member => (List.mem_append.1 member).elim (blank c) (blank' c)
  | cons c cs =>
      have front : (c :: cs ++ after).dropWhile isBlankChar = c :: cs ++ after :=
        List.dropWhile_cons_of_neg (by simp [free c List.mem_cons_self])
      rw [trimChars, List.append_assoc, List.dropWhile_append_of_pos blank, front,
        List.reverse_append, List.dropWhile_append_of_pos (by simpa using blank'),
        dropWhile_of_free (fun d member => free d (List.mem_reverse.1 member)),
        List.reverse_reverse]

/-- A blank text is one of which trimming leaves nothing. -/
theorem isBlank_iff {s : String} : isBlank s = true ↔ trim s = "" := by
  rw [isBlank, List.all_eq_true, ← trimChars_eq_nil_iff, trim, ← String.toList_inj]
  simp

end FormSieve.Text
