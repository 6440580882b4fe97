import FormSieve.Http.Target
import FormSieve.Proofs.Text.Encoding
import Mathlib.Data.List.TakeWhile

/-!
# Request targets that are written out

A path and a query that are written with no bytes but their own are read as they are, alone and
behind a scheme and an authority. Of a whole address that has such a path, only the authority and
the length are judged.
-/

namespace FormSieve.Http.Target

open Ascii

/-! ## Paths with a query -/

/-- A path with its query as it is written. -/
def written (path : Bytes) (query : Option Bytes) : Bytes :=
  path ++ (match query with | some query => questionMark :: query | none => [])

variable {path : Bytes} {query : Option Bytes}

theorem numberSign_notMem_written (inPath : ∀ b ∈ path, isPathByte b = true)
    (inQuery : ∀ b ∈ query.getD [], isQueryByte b = true) : numberSign ∉ written path query := by
  intro member
  rcases List.mem_append.1 member with front | behind
  · exact absurd (inPath _ front) (by decide)
  · cases query with
    | none => exact absurd behind List.not_mem_nil
    | some query =>
        rcases List.mem_cons.1 behind with mark | inside
        · exact absurd mark (by decide)
        · exact absurd (inQuery _ inside) (by decide)

/-- The path ends at the question mark, if there is one. -/
theorem cut_written (query : Option Bytes) (inPath : ∀ b ∈ path, isPathByte b = true) :
    (written path query).takeWhile (· ≠ questionMark) = path ∧
      (written path query).dropWhile (· ≠ questionMark) =
        (match query with | some query => questionMark :: query | none => []) := by
  have stays : ∀ b ∈ path, decide (b ≠ questionMark) = true := by
    intro b member
    rw [decide_eq_true_iff]
    rintro rfl
    exact absurd (inPath _ member) (by decide)
  cases query with
  | none =>
      rw [written, List.takeWhile_append_of_pos stays, List.dropWhile_append_of_pos stays]
      simp
  | some query =>
      rw [written, List.takeWhile_append_of_pos stays, List.dropWhile_append_of_pos stays]
      simp

/-- A path and a query are read as they are written. -/
theorem ofPath?_written {s : String} (text : Text.bytes s = written path query) (begun : path ≠ [])
    (inPath : ∀ b ∈ path, isPathByte b = true)
    (inQuery : ∀ b ∈ query.getD [], isQueryByte b = true) :
    ofPath? (written path query) = some ⟨path, query⟩ := by
  have whole : (written path query).takeWhile (· ≠ numberSign) = written path query := by
    refine List.takeWhile_eq_self_iff.2 fun b member => ?_
    rw [decide_eq_true_iff]
    rintro rfl
    exact numberSign_notMem_written inPath inQuery member
  have isText : (Text.ofBytes? (written path query)).isSome = true := by
    rw [← text, Text.ofBytes?_bytes]
    rfl
  have notEmpty : path.isEmpty = false := by simpa using begun
  obtain ⟨front, behind⟩ := cut_written query inPath
  have pathFits : path.all isPathByte = true := List.all_eq_true.2 inPath
  have queryFits : (query.getD []).all isQueryByte = true := List.all_eq_true.2 inQuery
  simp only [ofPath?, whole, front, behind, pathFits, isText, notEmpty]
  cases query with
  | none => rfl
  | some query =>
      have fits : query.all isQueryByte = true := queryFits
      simp [fits]

/-! ## Whole addresses -/

/-- A whole address with a path is read as the path, if the authority is one. -/
theorem ofAddress?_written {scheme authority rest : Bytes}
    (isScheme : ∀ b ∈ scheme, isSchemeByte b = true) (short : scheme.length ≤ maxSchemeLength)
    (inAuthority : ∀ b ∈ authority, endsAuthority b = false) :
    ofAddress? (scheme ++ colon :: slash :: slash :: (authority ++ slash :: rest)) =
      if isAuthority authority && !authority.isEmpty then ofPath? (slash :: rest) else none := by
  have inside : ∀ b ∈ authority, (!endsAuthority b) = true := by simpa using inAuthority
  have colonEnds : isSchemeByte colon = false := by decide
  have slashEnds : endsAuthority slash = true := by decide
  have cut : cutScheme? (scheme ++ colon :: slash :: slash :: (authority ++ slash :: rest)) =
      some (scheme, authority ++ slash :: rest) := by
    rw [cutScheme?, List.dropWhile_append_of_pos isScheme, List.takeWhile_append_of_pos isScheme,
      List.dropWhile_cons_of_neg (by simp [colonEnds]),
      List.takeWhile_cons_of_neg (by simp [colonEnds]), List.append_nil]
    exact if_pos ⟨rfl, rfl, rfl⟩
  have taken : (authority ++ slash :: rest).takeWhile (!endsAuthority ·) = authority := by
    rw [List.takeWhile_append_of_pos inside, List.takeWhile_cons_of_neg (by simp [slashEnds]),
      List.append_nil]
  have dropped : (authority ++ slash :: rest).dropWhile (!endsAuthority ·) = slash :: rest := by
    rw [List.dropWhile_append_of_pos inside, List.dropWhile_cons_of_neg (by simp [slashEnds])]
  have fits : decide (scheme.length ≤ maxSchemeLength) = true := decide_eq_true short
  simp only [ofAddress?, cut, taken, dropped, fits, Bool.true_and]

/-! ## Targets -/

/-- Only single bytes are judged by themselves. -/
theorem parse?_of_two {s : String} {b c : UInt8} {rest : Bytes}
    (text : Text.bytes s = b :: c :: rest) :
    parse? s =
      if maxLength < (Text.bytes s).length then none
      else if b = slash then ofPath? (Text.bytes s)
      else ofAddress? (Text.bytes s) := by
  rw [parse?]
  simp only [text]

theorem parse?_of_path {s : String} {rest : Bytes} (text : Text.bytes s = slash :: rest)
    (more : rest ≠ []) (short : (Text.bytes s).length ≤ maxLength) :
    parse? s = ofPath? (Text.bytes s) := by
  obtain ⟨b, rest, rfl⟩ := List.exists_cons_of_ne_nil more
  rw [parse?_of_two text, if_neg (Nat.not_lt.2 short), if_pos rfl]

/-- Of a whole address that is short enough, only the authority is judged before its path is. -/
theorem parse?_of_address {s : String} {scheme authority rest : Bytes}
    (text : Text.bytes s = scheme ++ colon :: slash :: slash :: (authority ++ slash :: rest))
    (named : scheme ≠ []) (isScheme : ∀ b ∈ scheme, isSchemeByte b = true)
    (brief : scheme.length ≤ maxSchemeLength)
    (inAuthority : ∀ b ∈ authority, endsAuthority b = false) :
    parse? s =
      if maxLength < (Text.bytes s).length then none
      else if isAuthority authority && !authority.isEmpty then ofPath? (slash :: rest)
      else none := by
  rw [← ofAddress?_written isScheme brief inAuthority, ← text]
  obtain ⟨b, name, rfl⟩ := List.exists_cons_of_ne_nil named
  have notSlash : b ≠ slash := by
    rintro rfl
    exact absurd (isScheme _ List.mem_cons_self) (by decide)
  obtain ⟨c, later, more⟩ : ∃ c later,
      name ++ colon :: slash :: slash :: (authority ++ slash :: rest) = c :: later :=
    List.exists_cons_of_ne_nil (by simp)
  rw [List.cons_append, more] at text
  rw [parse?_of_two text, if_neg notSlash]

end FormSieve.Http.Target
