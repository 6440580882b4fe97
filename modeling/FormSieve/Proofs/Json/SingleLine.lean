import FormSieve.Proofs.Json.Printing

/-!
# What is written stands on one line

Escaping leaves no control character in a text, line breaks among them, and nothing else that is
written of a document has any. So a document takes one line, whatever its texts say.
-/

namespace FormSieve.Json

/-- A text without control characters. -/
def SingleLine (s : String) : Prop := ∀ c ∈ s.toList, 0x20 ≤ c.toNat

-- Going through the characters of the text and not through all characters that there are.
instance (s : String) : Decidable (SingleLine s) := List.decidableBAll _ _

theorem SingleLine.append {s more : String} (h : SingleLine s) (h' : SingleLine more) :
    SingleLine (s ++ more) := by
  intro c member
  rw [String.toList_append, List.mem_append] at member
  exact member.elim (h c) (h' c)

theorem singleLine_ofList {cs : List Char} :
    SingleLine (String.ofList cs) ↔ ∀ c ∈ cs, 0x20 ≤ c.toNat := by
  rw [SingleLine, String.toList_ofList]

theorem le_toNat_digitChar : ∀ n < 16, 0x20 ≤ (Nat.digitChar n).toNat := by decide

/-- A control character is written by others. -/
theorem singleLine_printChar (c : Char) : SingleLine (String.ofList (printChar c)) := by
  unfold printChar
  split_ifs with quote backslash backspace feed newline return' tab control
  any_goals decide
  · have high := le_toNat_digitChar (c.toNat / 16) (by omega)
    have low := le_toNat_digitChar (c.toNat % 16) (Nat.mod_lt _ (by decide))
    have digits : SingleLine (String.ofList [Nat.digitChar (c.toNat / 16),
        Nat.digitChar (c.toNat % 16)]) := by
      simpa [SingleLine] using And.intro high low
    have marks : SingleLine (String.ofList ['\\', 'u', '0', '0']) := by decide
    have both := marks.append digits
    rw [← String.ofList_append] at both
    exact both
  · simpa [SingleLine] using control

theorem singleLine_printText (s : String) : SingleLine (printText s) := by
  intro d member
  rw [printText, String.toList_ofList, List.mem_cons, List.mem_append, List.mem_singleton] at member
  rcases member with rfl | inside | rfl
  · decide
  · obtain ⟨c, -, member⟩ := List.mem_flatMap.1 inside
    exact singleLine_printChar c d (by simpa using member)
  · decide

/-! ## Numbers -/

theorem le_toNat_of_isDigit {c : Char} (digit : c.isDigit = true) : 0x20 ≤ c.toNat :=
  Nat.le_trans (by decide) (bounds_of_isDigit digit).1

theorem singleLine_repr (n : Nat) : SingleLine n.repr := by
  rw [Nat.repr_eq_ofList_toDigits, singleLine_ofList]
  exact fun c member => le_toNat_of_isDigit (allDigits_toDigits n c member)

theorem singleLine_printInt (n : Int) : SingleLine (printInt n) := by
  rw [printInt]
  split
  · exact SingleLine.append (by decide) (singleLine_repr _)
  · exact singleLine_repr _

theorem FloatLayout.singleLine_print (layout : FloatLayout) (d : Decimal) :
    SingleLine (String.ofList (layout.print d)) := by
  have digits (n : Nat) : ∀ c ∈ Nat.toDigits 10 n, 0x20 ≤ c.toNat := fun c member =>
    le_toNat_of_isDigit (allDigits_toDigits n c member)
  have zero (n : Nat) : ∀ c ∈ zeros n, 0x20 ≤ c.toNat := fun c member =>
    List.eq_of_mem_replicate member ▸ by decide
  rw [singleLine_ofList, print]
  dsimp only
  split
  · split
    · exact List.forall_mem_append.2 ⟨List.forall_mem_append.2 ⟨digits _, zero _⟩,
        singleLine_ofList.1 (by decide)⟩
    · split
      · refine List.forall_mem_append.2 ⟨fun c member => ?_, List.forall_mem_cons.2
          ⟨by decide, fun c member => ?_⟩⟩
        · exact digits _ c (List.mem_of_mem_take member)
        · exact digits _ c (List.mem_of_mem_drop member)
      · exact List.forall_mem_append.2 ⟨List.forall_mem_append.2
          ⟨singleLine_ofList.1 (by decide), zero _⟩, digits _⟩
  · refine List.forall_mem_append.2 ⟨?_, List.forall_mem_cons.2
      ⟨by decide, List.forall_mem_cons.2 ⟨by split <;> decide, digits _⟩⟩⟩
    -- Before the mark of the exponent, with a point behind the first of several digits.
    have significand := digits d.digits
    cases form : Nat.toDigits 10 d.digits with
    | nil => exact List.forall_mem_nil _
    | cons first more =>
        rw [form] at significand
        obtain ⟨head, tail⟩ := List.forall_mem_cons.1 significand
        dsimp only
        split
        · exact List.forall_mem_singleton.2 head
        · exact List.forall_mem_cons.2 ⟨head, List.forall_mem_cons.2 ⟨by decide, tail⟩⟩

theorem singleLine_printFloat (x : Binary64) : SingleLine (printFloat x) := by
  have magnitude : SingleLine (String.ofList (if x.rank = 0 then ['0', '.', '0']
      else floatLayout.print (Binary64.shortest x.rank))) := by
    split
    · decide
    · exact FloatLayout.singleLine_print _ _
  rw [singleLine_ofList] at magnitude
  rw [printFloat, singleLine_ofList]
  split
  · exact List.forall_mem_cons.2 ⟨by decide, magnitude⟩
  · exact magnitude

theorem Number.singleLine_print (n : Number) : SingleLine n.print := by
  cases n with
  | integer n fits => exact singleLine_printInt n
  | float x => exact singleLine_printFloat x

/-! ## Lists and records -/

theorem singleLine_commaSeparated {docs : List String} (h : ∀ doc ∈ docs, SingleLine doc) :
    SingleLine (commaSeparated docs) := by
  induction docs with
  | nil => decide
  | cons doc docs ih =>
      obtain ⟨first, others⟩ := List.forall_mem_cons.1 h
      cases docs with
      | nil => exact first
      | cons next more => exact (first.append (by decide)).append (ih others)

theorem singleLine_printList {docs : List String} (h : ∀ doc ∈ docs, SingleLine doc) :
    SingleLine (printList docs) :=
  (SingleLine.append (by decide) (singleLine_commaSeparated h)).append (by decide)

/-- A record stands on one line if each of its documents does. -/
theorem singleLine_printRecord {members : List (String × String)}
    (h : ∀ m ∈ members, SingleLine m.2) : SingleLine (printRecord members) := by
  have inside : SingleLine (commaSeparated (members.map fun m => printText m.1 ++ ":" ++ m.2)) := by
    refine singleLine_commaSeparated fun doc member => ?_
    obtain ⟨m, given, rfl⟩ := List.mem_map.1 member
    exact ((singleLine_printText m.1).append (by decide)).append (h m given)
  exact (SingleLine.append (by decide) inside).append (by decide)

/-! ## Values -/

/-- A value stands on one line, however deep its texts and names lie and whatever they say. -/
theorem Value.singleLine_print (v : Value) : SingleLine v.print := by
  induction v using Value.induction with
  | null => decide
  | boolean b => cases b <;> decide
  | number n => exact n.singleLine_print
  | text s => exact singleLine_printText s
  | array vs ih =>
      rw [Value.print, printAll_eq_map]
      exact singleLine_printList (List.forall_mem_map.2 ih)
  | object ms ih =>
      rw [Value.print, printMembers_eq_map]
      exact singleLine_printRecord (List.forall_mem_map.2 ih)

end FormSieve.Json
