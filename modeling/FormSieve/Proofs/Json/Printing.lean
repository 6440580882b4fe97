import FormSieve.Proofs.Json.Spelling
import Mathlib.Data.List.Forall2

/-!
# What is written is a spelling

Texts, whole numbers, lists, records and values are spelled by what is written for them. Lists and
records are treated apart from values, since records of this library are written field by field.
-/

namespace FormSieve.Json

open Ascii

/-! ## Texts -/

/-- The byte of a hexadecimal digit. -/
theorem hexDigit?_digitChar : ∀ n < 16,
    String.utf8EncodeChar (Nat.digitChar n) = [UInt8.ofNat (Nat.digitChar n).toNat] ∧
      hexDigit? (UInt8.ofNat (Nat.digitChar n).toNat) = some n := by
  decide

/-- A control character is given by its number. -/
theorem charSpelling_of_control {c : Char} (h : c.toNat < 0x20) :
    CharSpelling c (Text.encode ['\\', 'u', '0', '0', Nat.digitChar (c.toNat / 16),
      Nat.digitChar (c.toNat % 16)]) := by
  obtain ⟨first, high⟩ := hexDigit?_digitChar (c.toNat / 16) (by omega)
  obtain ⟨second, low⟩ := hexDigit?_digitChar (c.toNat % 16) (Nat.mod_lt _ (by decide))
  have unit : HexUnit [zero, zero, UInt8.ofNat (Nat.digitChar (c.toNat / 16)).toNat,
      UInt8.ofNat (Nat.digitChar (c.toNat % 16)).toNat] c.toNat := by
    refine ⟨rfl, ?_⟩
    have value : 16 * (c.toNat / 16) + c.toNat % 16 = c.toNat := Nat.div_add_mod ..
    simp [addHexDigit, show hexDigit? zero = some 0 by decide, high, low, value]
  have spelled := CharSpelling.unit unit (.inl (by omega))
  rw [Char.ofNat_toNat] at spelled
  rw [Text.encode, List.flatMap_cons, List.flatMap_cons, List.flatMap_cons, List.flatMap_cons,
    List.flatMap_cons, List.flatMap_cons, first, second]
  exact spelled

/-- What is written for a character is one of its spellings. -/
theorem charSpelling_printChar (c : Char) : CharSpelling c (Text.encode (printChar c)) := by
  unfold printChar
  split_ifs with quote backslash backspace feed newline return' tab control
  · subst quote
    exact .letter (show escapedByte? Ascii.quote = some Ascii.quote by decide)
  · subst backslash
    exact .letter (show escapedByte? Ascii.backslash = some Ascii.backslash by decide)
  · subst backspace
    exact .letter (show escapedByte? 0x62 = some 0x08 by decide)
  · subst feed
    exact .letter (show escapedByte? 0x66 = some 0x0C by decide)
  · subst newline
    exact .letter (show escapedByte? 0x6E = some Ascii.newline by decide)
  · subst return'
    exact .letter (show escapedByte? 0x72 = some carriageReturn by decide)
  · subst tab
    exact .letter (show escapedByte? 0x74 = some Ascii.tab by decide)
  · exact charSpelling_of_control control
  · simpa [Text.encode] using CharSpelling.self (Nat.le_of_not_lt control) quote backslash

/-- What is written for a text, between its quotes. -/
theorem textSpelling_print (cs : List Char) :
    TextSpelling cs (Text.encode (cs.flatMap printChar)) := by
  induction cs with
  | nil => exact .nil
  | cons c cs ih =>
      rw [List.flatMap_cons, Text.encode_append]
      exact .cons (charSpelling_printChar c) ih

theorem bytes_printText (s : String) :
    Text.bytes (printText s) =
      quote :: (Text.encode (s.toList.flatMap printChar) ++ [quote]) := by
  rw [printText, Text.bytes_ofList_eq_encode, Text.encode_cons, Text.encode_append]
  rfl

/-! ## Lists and records -/

/-- Documents between commas. -/
theorem entries_commaSeparated {entry : α → Bytes → Prop} {as : List α} {docs : List String}
    (h : List.Forall₂ (fun a doc => entry a (Text.bytes doc)) as docs) :
    Entries entry as (Text.bytes (commaSeparated docs)) := by
  cases h with
  | nil => exact .none Blank.nil
  | @cons a doc as docs first others =>
      refine .some ?_
      induction others generalizing a doc with
      | nil => simpa [commaSeparated] using Separated.last Blank.nil first Blank.nil
      | @cons a' doc' as docs second others ih =>
          have next := Separated.more Blank.nil first Blank.nil (ih second)
          rw [commaSeparated, Text.bytes_append, Text.bytes_append, List.append_assoc]
          exact next
          simp

section Layers

variable {room : Nat}

theorem spelling_text (s : String) :
    (Value.text s).Spelling room (Text.bytes (printText s)) := by
  rw [bytes_printText]
  cases room <;> exact .text _ (textSpelling_print _)

theorem spelling_null : Value.null.Spelling room (Text.bytes "null") := by
  cases room <;> exact .null _

theorem spelling_boolean (b : Bool) :
    (Value.boolean b).Spelling room (Text.bytes (if b then "true" else "false")) := by
  cases b <;> cases room <;> first | exact .true _ | exact .false _

theorem spelling_number {n : Number} {bs : Bytes} (h : NumberSpelling n bs) :
    (Value.number n).Spelling room bs := by
  cases room <;> exact .number _ h

/-- A list is spelled by what is written for it if its items are. -/
theorem spelling_printList {vs : List Value} {docs : List String}
    (h : List.Forall₂ (fun v doc => v.Spelling room (Text.bytes doc)) vs docs) :
    (Value.array vs).Spelling (room + 1) (Text.bytes (printList docs)) := by
  have inside : (Value.array vs).Spelling (room + 1) _ := .array (entries_commaSeparated h)
  rw [printList, Text.bytes_append, Text.bytes_append, List.append_assoc]
  exact inside

theorem memberSpelling_print {item : β → Bytes → Prop} {v : β} {doc : String} (name : String)
    (h : item v (Text.bytes doc)) :
    MemberSpelling item (name, v) (Text.bytes (printText name ++ ":" ++ doc)) := by
  have spelled : MemberSpelling item (name, v) _ :=
    .intro (textSpelling_print _) Blank.nil Blank.nil h
  have colon : Text.bytes ":" = [colon] := by decide
  rw [Text.bytes_append, Text.bytes_append, bytes_printText, colon]
  simpa using spelled

/-- The members of a record, as they are written, are spelled so. -/
theorem entries_printRecord {item : β → Bytes → Prop} {ms : List (String × β)}
    {docs : List (String × String)}
    (h : List.Forall₂ (fun m doc => m.1 = doc.1 ∧ item m.2 (Text.bytes doc.2)) ms docs) :
    Entries (MemberSpelling item) ms (Text.bytes
      (commaSeparated (docs.map fun m => printText m.1 ++ ":" ++ m.2))) := by
  refine entries_commaSeparated ?_
  rw [List.forall₂_map_right_iff]
  refine h.imp ?_
  rintro ⟨name, v⟩ ⟨_, doc⟩ ⟨rfl, hdoc⟩
  exact memberSpelling_print name hdoc

theorem bytes_printRecord (docs : List (String × String)) :
    Text.bytes (printRecord docs) =
      leftBrace :: (Text.bytes (commaSeparated (docs.map fun m => printText m.1 ++ ":" ++ m.2)) ++
        [rightBrace]) := by
  rw [printRecord, Text.bytes_append, Text.bytes_append, List.append_assoc]
  rfl

/-- An object is spelled by what is written for it if the values of its members are. -/
theorem spelling_printRecord {ms : Members} {docs : List (String × String)}
    (h : List.Forall₂ (fun m doc => m.1 = doc.1 ∧ m.2.Spelling room (Text.bytes doc.2)) ms docs) :
    (Value.object ms).Spelling (room + 1) (Text.bytes (printRecord docs)) := by
  rw [bytes_printRecord]
  exact .object (entries_printRecord h)

end Layers

/-! ## Values -/

theorem numberSpelling_integer (n : Int) (fits : -2 ^ 63 ≤ n ∧ n < 2 ^ 64) :
    NumberSpelling (.integer n fits) (Text.bytes (Number.integer n fits).print) := by
  rw [Number.print, printInt]
  split
  · next negative =>
    obtain ⟨k, rfl⟩ : ∃ k : Nat, n = -k := ⟨n.natAbs, by omega⟩
    rw [Int.natAbs_neg, Int.natAbs_natCast, Text.bytes_append]
    exact .negative (number_repr_negative (by omega) (by omega))
  · next positive =>
    obtain ⟨k, rfl⟩ : ∃ k : Nat, n = k := ⟨n.natAbs, by omega⟩
    rw [Int.natAbs_natCast]
    exact .positive (number_repr (by omega))

/-- A natural number as a value. -/
def Value.natural (n : Nat) (fits : n < 2 ^ 64) : Value :=
  .number (.integer n (Number.fits_of_lt fits))

theorem Value.print_natural (n : Nat) (fits : n < 2 ^ 64) : (natural n fits).print = n.repr := by
  rw [natural, Value.print, Number.print, printInt, if_neg (by omega), Int.natAbs_natCast]

theorem printAll_eq_map (vs : List Value) : printAll vs = vs.map Value.print := by
  induction vs with
  | nil => rfl
  | cons v vs ih => rw [printAll, ih, List.map_cons]

theorem printMembers_eq_map (ms : Members) :
    printMembers ms = ms.map fun m => (m.1, m.2.print) := by
  induction ms with
  | nil => rfl
  | cons m ms ih => rw [printMembers, ih, List.map_cons]

/-- A value is spelled by what is written for it if each of its numbers is. -/
theorem spelling_print {room : Nat} {v : Value} (fits : v.Fits room)
    (numbers : v.Everywhere fun part =>
      ∀ n, part = .number n → NumberSpelling n (Text.bytes n.print)) :
    v.Spelling room (Text.bytes v.print) := by
  induction fits with
  | null => exact spelling_null
  | boolean room b => cases b <;> exact spelling_boolean _
  | number room n => exact spelling_number (numbers.self n rfl)
  | text room s => exact spelling_text s
  | @array room vs _ ih =>
      rw [Value.everywhere_array_iff] at numbers
      rw [Value.print, printAll_eq_map]
      refine spelling_printList ?_
      rw [List.forall₂_map_right_iff, List.forall₂_same]
      exact fun v hv => ih v hv (numbers.2 v hv)
  | @object room ms _ ih =>
      rw [Value.everywhere_object_iff] at numbers
      rw [Value.print, printMembers_eq_map]
      refine spelling_printRecord ?_
      rw [List.forall₂_map_right_iff, List.forall₂_same]
      exact fun m hm => ⟨rfl, ih m hm (numbers.2 m hm)⟩

/-- A value whose numbers are all whole is spelled by what is written for it. -/
theorem spelling_print_of_whole {room : Nat} {v : Value} (fits : v.Fits room) (whole : v.Whole) :
    v.Spelling room (Text.bytes v.print) := by
  refine spelling_print fits (whole.mono fun part numbers n same => ?_)
  obtain ⟨k, hk, rfl⟩ := numbers n same
  exact numberSpelling_integer k hk

/-- Such a value is read back as it was. -/
theorem decode_print_of_whole {v : Value} (fits : v.Fits maxDepth) (whole : v.Whole) :
    decode valueAsWritten (Text.bytes v.print) = .ok v := by
  have read := decode_valueAsWritten_of_spelling (spelling_print_of_whole fits whole) Blank.nil
    Blank.nil
  rwa [List.nil_append, List.append_nil] at read

end FormSieve.Json
