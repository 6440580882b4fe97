import FormSieve.Http.Target
import FormSieve.Proofs.Text.Lossy
import FormSieve.Text.Form
import Mathlib.Tactic.SplitIfs

/-!
# Query pairs, written and read

Pairs of any texts are read back from the query that is written for them, in order and with
repetitions, empty names and empty values included. What is written has none but bytes that a
query may have, and there is nothing in it only if there are no pairs.
-/

namespace FormSieve

open Ascii

/-! ## Dividing what was joined -/

theorem mem_of_mem_intercalate {α : Type} {a : α} {separator : List α} {pieces : List (List α)}
    (h : a ∈ separator.intercalate pieces) : a ∈ separator ∨ ∃ piece ∈ pieces, a ∈ piece := by
  induction pieces with
  | nil => exact absurd h List.not_mem_nil
  | cons piece pieces ih =>
      cases pieces with
      | nil =>
          rw [List.intercalate_singleton] at h
          exact .inr ⟨piece, List.mem_cons_self, h⟩
      | cons next more =>
          rw [List.intercalate_cons_cons] at h
          rcases List.mem_append.1 h with front | later
          · rcases List.mem_append.1 front with first | mark
            · exact .inr ⟨piece, List.mem_cons_self, first⟩
            · exact .inl mark
          · exact (ih later).imp_right fun ⟨p, member, inside⟩ =>
              ⟨p, List.mem_cons_of_mem _ member, inside⟩

namespace Bytes

variable {separator : UInt8}

theorem splitOn_of_free {piece : Bytes} (free : separator ∉ piece) :
    splitOn separator piece = [piece] := by
  induction piece with
  | nil => rfl
  | cons b piece ih =>
      obtain ⟨other, free⟩ := List.ne_and_not_mem_of_not_mem_cons free
      rw [splitOn, if_neg (Ne.symm other), ih free]

theorem splitOn_append {piece : Bytes} (free : separator ∉ piece) (rest : Bytes) :
    splitOn separator (piece ++ separator :: rest) = piece :: splitOn separator rest := by
  induction piece with
  | nil => exact if_pos rfl
  | cons b piece ih =>
      obtain ⟨other, free⟩ := List.ne_and_not_mem_of_not_mem_cons free
      rw [List.cons_append, splitOn, if_neg (Ne.symm other), ih free]

theorem splitOn_intercalate {pieces : List Bytes} (nonempty : pieces ≠ [])
    (free : ∀ piece ∈ pieces, separator ∉ piece) :
    splitOn separator ([separator].intercalate pieces) = pieces := by
  induction pieces with
  | nil => exact absurd rfl nonempty
  | cons piece pieces ih =>
      obtain ⟨first, others⟩ := List.forall_mem_cons.1 free
      cases pieces with
      | nil => rw [List.intercalate_singleton, splitOn_of_free first]
      | cons next more =>
          rw [List.intercalate_cons_cons, List.append_assoc, List.singleton_append,
            splitOn_append first, ih (List.cons_ne_nil _ _) others]

theorem cutAt_append {piece : Bytes} (free : separator ∉ piece) (rest : Bytes) :
    cutAt separator (piece ++ separator :: rest) = (piece, rest) := by
  induction piece with
  | nil => exact if_pos rfl
  | cons b piece ih =>
      obtain ⟨other, free⟩ := List.ne_and_not_mem_of_not_mem_cons free
      rw [List.cons_append, cutAt, if_neg (Ne.symm other), ih free]

end Bytes

namespace Form

/-! ## Names and values -/

/-- The bytes that are written for a byte. -/
def written (b : UInt8) : Bytes :=
  if keeps b then [b]
  else if b = space then [plus]
  else [percent, Percent.digitByte (b.toNat / 16), Percent.digitByte (b.toNat % 16)]

/-- A byte that is written for a name or a value. -/
def isPartByte (b : UInt8) : Bool := keeps b || b = plus || b = percent

theorem toNat_lt_of_keeps {b : UInt8} (h : keeps b = true) : b.toNat < 0x80 := by
  simp only [keeps, isAlphanumeric, UInt8.le_iff_toNat_le, ← UInt8.toNat_inj, Bool.or_eq_true,
    decide_eq_true_eq, UInt8.reduceToNat] at h
  omega

theorem keeps_digitByte : ∀ n < 16, keeps (Percent.digitByte n) = true := by decide

theorem isPartByte_of_mem_written {b c : UInt8} (h : c ∈ written b) : isPartByte c = true := by
  rw [written] at h
  split_ifs at h with kept blank
  · obtain rfl := List.mem_singleton.1 h
    simp [isPartByte, kept]
  · obtain rfl := List.mem_singleton.1 h
    decide
  · have digit : ∀ n < 16, isPartByte (Percent.digitByte n) = true := by decide
    exact Percent.forall_mem_escape (P := (isPartByte · = true)) (by decide) digit b c h

/-- The bytes of what is written for a name or a value. -/
theorem encode_encodePart (s : String) :
    Text.encode (encodePart s) = (Text.bytes s).flatMap written := by
  have each (b : UInt8) :
      (if keeps b then [Char.ofNat b.toNat] else if b = space then ['+']
        else Percent.encodeByte b).flatMap String.utf8EncodeChar = written b := by
    rw [written]
    split_ifs with kept blank
    · simp [Text.utf8EncodeChar_ofNat_of_ascii (toNat_lt_of_keeps kept)]
    · rfl
    · exact Percent.bytes_encodeByte b
  rw [encodePart, Text.encode, List.flatMap_assoc]
  simp only [each]

theorem isPartByte_of_mem_encodePart {s : String} {b : UInt8}
    (h : b ∈ Text.encode (encodePart s)) : isPartByte b = true := by
  rw [encode_encodePart] at h
  obtain ⟨c, -, written⟩ := List.mem_flatMap.1 h
  exact isPartByte_of_mem_written written

/-- Reading puts blanks in the place of plus signs; what is then left is percent-encoding. -/
theorem map_written (b : UInt8) :
    ((written b).map fun c => if c = plus then space else c) =
      Percent.written (fun b => keeps b || b = space) b := by
  have unlike (c : UInt8) (kept : keeps c = true) : (if c = plus then space else c) = c := by
    refine if_neg ?_
    rintro rfl
    exact absurd kept (by decide)
  have high : b.toNat / 16 < 16 := Nat.div_lt_of_lt_mul b.toNat_lt
  have low : b.toNat % 16 < 16 := Nat.mod_lt _ (by decide)
  rw [written, Percent.written]
  by_cases kept : keeps b = true
  · simp [kept, unlike b kept]
  by_cases blank : b = space
  · simp [blank, (by decide : keeps space = false)]
  · have first := unlike _ (keeps_digitByte _ high)
    have second := unlike _ (keeps_digitByte _ low)
    simp [kept, blank, first, second, (by decide : percent ≠ plus)]

theorem decodePart_encodePart (s : String) : decodePart (Text.encode (encodePart s)) = s := by
  have notPercent : (keeps percent || decide (percent = space)) = false := by decide
  rw [decodePart, encode_encodePart, List.map_flatMap]
  simp only [map_written]
  rw [Percent.decode_written_of_not_percent notPercent, Text.lossy_bytes]

/-- Text without plus and percent signs stands for itself. -/
theorem decodePart_bytes {s : String} (plain : plus ∉ Text.bytes s)
    (unescaped : percent ∉ Text.bytes s) : decodePart (Text.bytes s) = s := by
  have same : (Text.bytes s).map (fun b => if b = plus then space else b) = Text.bytes s := by
    refine (List.map_congr_left fun b member => if_neg ?_).trans (List.map_id _)
    rintro rfl
    exact plain member
  rw [decodePart, same, Percent.decode_of_free unescaped, Text.lossy_bytes]

/-! ## Pairs -/

theorem encode_encodePair (pair : String × String) :
    Text.encode (encodePair pair) =
      Text.encode (encodePart pair.1) ++ equalSign :: Text.encode (encodePart pair.2) := by
  rw [encodePair, Text.encode_append, Text.encode_cons]
  rfl

/-- A byte that is written for pairs. -/
theorem part_or_equalSign_of_mem_encodePair {pair : String × String} {b : UInt8}
    (h : b ∈ Text.encode (encodePair pair)) : isPartByte b = true ∨ b = equalSign := by
  rw [encode_encodePair] at h
  rcases List.mem_append.1 h with name | rest
  · exact .inl (isPartByte_of_mem_encodePart name)
  · rcases List.mem_cons.1 rest with mark | value
    · exact .inr mark
    · exact .inl (isPartByte_of_mem_encodePart value)

theorem ampersand_notMem_encodePair (pair : String × String) :
    ampersand ∉ Text.encode (encodePair pair) := by
  intro member
  rcases part_or_equalSign_of_mem_encodePair member with part | mark
  · exact absurd part (by decide)
  · exact absurd mark (by decide)

theorem bytes_encode (pairs : List (String × String)) :
    Text.bytes (encode pairs) =
      [ampersand].intercalate (pairs.map fun pair => Text.encode (encodePair pair)) := by
  rw [encode, Text.bytes_ofList_eq_encode, Text.encode_intercalate, List.map_map]
  rfl

/-- Pairs are read back from what is written for them. -/
@[simp] theorem decode_encode (pairs : List (String × String)) :
    decode (Text.bytes (encode pairs)) = pairs := by
  by_cases empty : pairs = []
  · subst empty
    rfl
  · have free : ∀ piece ∈ pairs.map (fun pair => Text.encode (encodePair pair)),
        ampersand ∉ piece := by
      intro piece member
      obtain ⟨pair, -, rfl⟩ := List.mem_map.1 member
      exact ampersand_notMem_encodePair pair
    have divided := Bytes.splitOn_intercalate (by simpa using empty) free
    have nonempty (pair : String × String) : (Text.encode (encodePair pair)).isEmpty = false := by
      simp [encode_encodePair]
    have cut (pair : String × String) :
        (Text.encode (encodePair pair)).cutAt equalSign =
          (Text.encode (encodePart pair.1), Text.encode (encodePart pair.2)) := by
      rw [encode_encodePair]
      refine Bytes.cutAt_append (fun member => ?_) _
      exact absurd (isPartByte_of_mem_encodePart member) (by decide)
    rw [decode, bytes_encode, divided, List.filter_map, List.map_map]
    simp [Function.comp_def, nonempty, cut, decodePart_encodePart]

/-- A query is read piece by piece. -/
theorem decode_append {piece : Bytes} (free : ampersand ∉ piece) (rest : Bytes) :
    decode (piece ++ ampersand :: rest) = decode piece ++ decode rest := by
  rw [decode, decode, decode, Bytes.splitOn_append free, Bytes.splitOn_of_free free,
    ← List.map_append, ← List.filter_append, List.singleton_append]

theorem decode_pair {name value : Bytes} (one : ampersand ∉ name ++ equalSign :: value)
    (first : equalSign ∉ name) :
    decode (name ++ equalSign :: value) = [(decodePart name, decodePart value)] := by
  rw [decode, Bytes.splitOn_of_free one]
  simp [Bytes.cutAt_append first]

theorem encode_toList_eq_nil_iff {pairs : List (String × String)} :
    (encode pairs).toList = [] ↔ pairs = [] := by
  constructor
  · intro empty
    have decoded := decode_encode pairs
    rw [Text.bytes_eq_encode, empty] at decoded
    exact decoded.symm
  · rintro rfl
    rfl

/-- A byte that is written for a query. -/
theorem part_or_mark_of_mem_encode {pairs : List (String × String)} {b : UInt8}
    (h : b ∈ Text.bytes (encode pairs)) : isPartByte b = true ∨ b = equalSign ∨ b = ampersand := by
  rw [bytes_encode] at h
  rcases mem_of_mem_intercalate h with mark | ⟨piece, member, inside⟩
  · exact .inr (.inr (List.mem_singleton.1 mark))
  · obtain ⟨pair, -, rfl⟩ := List.mem_map.1 member
    exact (part_or_equalSign_of_mem_encodePair inside).imp_right .inl

/-- What is written may stand in a query. -/
theorem isQueryByte_of_mem_encode {pairs : List (String × String)} {b : UInt8}
    (h : b ∈ Text.bytes (encode pairs)) : Http.Target.isQueryByte b = true := by
  rcases part_or_mark_of_mem_encode h with part | rfl | rfl
  · simp only [isPartByte, keeps, isAlphanumeric, plus, percent, UInt8.le_iff_toNat_le,
      ← UInt8.toNat_inj, Bool.or_eq_true, decide_eq_true_eq, UInt8.reduceToNat] at part
    simp only [Http.Target.isQueryByte, UInt8.le_iff_toNat_le, ← UInt8.toNat_inj, Bool.or_eq_true,
      Bool.and_eq_true, decide_eq_true_eq, UInt8.reduceToNat]
    omega
  · decide
  · decide

end Form

end FormSieve
