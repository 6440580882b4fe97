import FormSieve.Net.Url
import FormSieve.Proofs.Text.Percent
import Mathlib.Data.List.Flatten

/-!
# Paths of URLs

A path is divided at its slashes, and its segments are entered one after the other: a segment is
put on those before it, unless it is made of points. A text that has nothing in it that a path
gives a meaning to is entered as one segment and is read back from it.
-/

namespace FormSieve

namespace Url

/-! ## Dividing at slashes -/

theorem splitSlashes_ne_nil (web : Bool) (cs : List Char) : splitSlashes web cs ≠ [] := by
  cases cs with
  | nil => simp [splitSlashes]
  | cons c cs =>
      rw [splitSlashes]
      split
      · simp
      · split <;> simp

theorem splitSlashes_slash {web : Bool} {c : Char} (h : isSlash web c = true) (cs : List Char) :
    splitSlashes web (c :: cs) = [] :: splitSlashes web cs := by
  rw [splitSlashes, if_pos h]

theorem splitSlashes_cons {web : Bool} {c : Char} (h : isSlash web c = false) {cs piece : List Char}
    {pieces : List (List Char)} (divided : splitSlashes web cs = piece :: pieces) :
    splitSlashes web (c :: cs) = (c :: piece) :: pieces := by
  rw [splitSlashes, if_neg (ne_true_of_eq_false h), divided]

theorem splitSlashes_append {web : Bool} {slash : Char} (h : isSlash web slash = true)
    (front rest : List Char) :
    splitSlashes web (front ++ slash :: rest) =
      splitSlashes web front ++ splitSlashes web rest := by
  induction front with
  | nil => simp [splitSlashes_slash h, splitSlashes]
  | cons c front ih =>
      rw [List.cons_append]
      cases same : isSlash web c with
      | true => rw [splitSlashes_slash same, splitSlashes_slash same, ih, List.cons_append]
      | false =>
          obtain ⟨piece, pieces, divided⟩ :=
            List.exists_cons_of_ne_nil (splitSlashes_ne_nil web front)
          rw [divided] at ih
          rw [splitSlashes_cons same divided, splitSlashes_cons same ih]
          rfl

theorem splitSlashes_of_free {web : Bool} {cs : List Char} (h : ∀ c ∈ cs, isSlash web c = false) :
    splitSlashes web cs = [cs] := by
  induction cs with
  | nil => rfl
  | cons c cs ih =>
      obtain ⟨first, rest⟩ := List.forall_mem_cons.1 h
      exact splitSlashes_cons first (ih rest)

/-- A piece is part of the text and has no slash in it. -/
theorem of_mem_splitSlashes {web : Bool} {cs piece : List Char} (h : piece ∈ splitSlashes web cs) :
    piece.Sublist cs ∧ ∀ c ∈ piece, isSlash web c = false := by
  induction cs generalizing piece with
  | nil =>
      obtain rfl := List.mem_singleton.1 h
      simp
  | cons c cs ih =>
      cases same : isSlash web c with
      | true =>
          rw [splitSlashes_slash same] at h
          rcases List.mem_cons.1 h with rfl | later
          · simp
          · exact ⟨(ih later).1.cons c, (ih later).2⟩
      | false =>
          obtain ⟨first, pieces, divided⟩ := List.exists_cons_of_ne_nil (splitSlashes_ne_nil web cs)
          rw [splitSlashes_cons same divided] at h
          rw [divided] at ih
          rcases List.mem_cons.1 h with rfl | later
          · obtain ⟨part, free⟩ := ih List.mem_cons_self
            exact ⟨part.cons_cons c, List.forall_mem_cons.2 ⟨same, free⟩⟩
          · obtain ⟨part, free⟩ := ih (List.mem_cons_of_mem _ later)
            exact ⟨part.cons c, free⟩

/-! ## Entering segments -/

/-- A segment that is put on those before it. -/
def IsProper (segment : List Char) : Prop :=
  isDoubleDot segment = false ∧ isSingleDot segment = false

/-- The segments after one more, last one first. -/
def enter (before : List (List Char)) (segment : List Char) : List (List Char) :=
  if isDoubleDot segment then parent before
  else if isSingleDot segment then before
  else encode pathKeeps segment :: before

theorem enter_of_isProper {segment : List Char} (h : IsProper segment) (before : List (List Char)) :
    enter before segment = encode pathKeeps segment :: before := by
  simp [enter, h.1, h.2]

theorem resolve_cons (before : List (List Char)) (segment : List Char) {rest : List (List Char)}
    (h : rest ≠ []) : resolve before (segment :: rest) = resolve (enter before segment) rest := by
  have more : rest.isEmpty = false := by simpa using h
  simp only [resolve, enter, more]
  split
  · rfl
  · split <;> rfl

/-- Segments that others follow are entered one after the other. -/
theorem resolve_append (before segments : List (List Char)) {rest : List (List Char)}
    (h : rest ≠ []) :
    resolve before (segments ++ rest) = resolve (segments.foldl enter before) rest := by
  induction segments generalizing before with
  | nil => rfl
  | cons segment segments ih =>
      rw [List.cons_append, resolve_cons before segment (by simp [h]), ih, List.foldl_cons]

/-- A proper segment at the end is the last one. -/
theorem resolve_concat (before segments : List (List Char)) {last : List Char} (h : IsProper last) :
    resolve before (segments ++ [last]) =
      (segments.foldl enter before).reverse ++ [encode pathKeeps last] := by
  rw [resolve_append before segments (by simp)]
  simp [resolve, h.1, h.2]

/-! ## What is put on a stack -/

/-- The segments above a height. -/
def above (height : Nat) (stack : List (List Char)) : List (List Char) :=
  stack.take (stack.length - height)

theorem mem_above_cons {height : Nat} {x segment : List Char} {stack : List (List Char)}
    (h : x ∈ above height (segment :: stack)) : x = segment ∨ x ∈ above height stack := by
  rw [above, List.length_cons] at h
  rcases Nat.lt_or_ge stack.length height with low | high
  · rw [Nat.sub_eq_zero_of_le low] at h
    exact absurd h (by simp)
  · rw [Nat.succ_sub high, List.take_succ_cons] at h
    exact List.mem_cons.1 h

theorem mem_above_parent {height : Nat} {x : List Char} {stack : List (List Char)}
    (h : x ∈ above height (parent stack)) : x ∈ above height stack := by
  cases stack with
  | nil => exact h
  | cons last before =>
      rw [parent] at h
      split at h
      · exact h
      · rw [above, List.length_cons]
        rcases Nat.lt_or_ge before.length height with low | high
        · rw [above, Nat.sub_eq_zero_of_le (Nat.le_of_lt low)] at h
          exact absurd h (by simp)
        · rw [Nat.succ_sub high, List.take_succ_cons]
          exact List.mem_cons_of_mem _ h

/-- What entering a segment leaves above a height was there before or is that segment. -/
theorem mem_above_enter {height : Nat} {x segment : List Char} {stack : List (List Char)}
    (h : x ∈ above height (enter stack segment)) :
    x ∈ above height stack ∨ IsProper segment ∧ x = encode pathKeeps segment := by
  rw [enter] at h
  split at h
  · exact .inl (mem_above_parent h)
  · next notDouble =>
      split at h
      · exact .inl h
      · next notSingle =>
          rcases mem_above_cons h with rfl | old
          · exact .inr ⟨⟨by simpa using notDouble, by simpa using notSingle⟩, rfl⟩
          · exact .inl old

/-- What entering some segments leaves above a height was there before or is one of them. -/
theorem mem_above_foldl_enter {height : Nat} {x : List Char} {segments stack : List (List Char)}
    (h : x ∈ above height (segments.foldl enter stack)) :
    x ∈ above height stack ∨
      ∃ segment ∈ segments, IsProper segment ∧ x = encode pathKeeps segment := by
  induction segments generalizing stack with
  | nil => exact .inl h
  | cons segment segments ih =>
      rcases ih h with early | ⟨other, member, proper, same⟩
      · rcases mem_above_enter early with old | ⟨proper, same⟩
        · exact .inl old
        · exact .inr ⟨segment, List.mem_cons_self, proper, same⟩
      · exact .inr ⟨other, List.mem_cons_of_mem _ member, proper, same⟩

/-- If entering some segments puts just one segment on a stack, it is one of them. -/
theorem eq_encode_of_foldl_enter {x : List Char} {segments stack : List (List Char)}
    (h : segments.foldl enter stack = x :: stack) :
    ∃ segment ∈ segments, IsProper segment ∧ x = encode pathKeeps segment := by
  have top : x ∈ above stack.length (segments.foldl enter stack) := by
    rw [h, above, List.length_cons, Nat.add_sub_cancel_left]
    simp
  rcases mem_above_foldl_enter top with old | entered
  · rw [above, Nat.sub_self] at old
    exact absurd old (by simp)
  · exact entered

/-! ## Literal texts -/

/-- A character that reading a URL does not drop. -/
def isKept (c : Char) : Bool := c ≠ '\t' && c ≠ '\n' && c ≠ '\r'

/-- A text that a path takes for one segment as it is: nothing in it is dropped, divides or ends
a path, leads elsewhere or stands for another byte. -/
structure Literal (web : Bool) (text : String) : Prop where
  kept : ∀ c ∈ text.toList, isKept c = true
  inPath : ∀ c ∈ text.toList, endsPath c = false
  undivided : ∀ c ∈ text.toList, isSlash web c = false
  notPoint : text ≠ "."
  notPoints : text ≠ ".."
  unescaped : Percent.decode (Text.bytes text) = Text.bytes text

instance (web : Bool) (text : String) : Decidable (Literal web text) :=
  decidable_of_iff
    ((text.toList.all isKept = true ∧ text.toList.all (!endsPath ·) = true ∧
        text.toList.all (!isSlash web ·) = true) ∧
      (text ≠ "." ∧ text ≠ "..") ∧ Percent.decode (Text.bytes text) = Text.bytes text) (by
    simp only [List.all_eq_true, Bool.not_eq_true']
    constructor
    · rintro ⟨⟨kept, inPath, undivided⟩, ⟨notPoint, notPoints⟩, unescaped⟩
      exact ⟨kept, inPath, undivided, notPoint, notPoints, unescaped⟩
    · intro h
      exact ⟨⟨h.kept, h.inPath, h.undivided⟩, ⟨h.notPoint, h.notPoints⟩, h.unescaped⟩)

theorem keepsEscapes_pathKeeps : Percent.KeepsEscapes pathKeeps where
  ascii b h := by
    simp only [pathKeeps, fragmentKeeps, isVisible, Bool.and_eq_true, decide_eq_true_eq,
      UInt8.lt_iff_toNat_lt] at h
    exact Nat.lt_trans h.1.1.1.1.1.1.1.1.2 (by decide)
  percent := by decide
  digit b h := by
    rw [← Option.not_isSome_iff_eq_none]
    intro digit
    refine ne_true_of_eq_false h ?_
    simp only [Ascii.hexDigit?, UInt8.le_iff_toNat_le] at digit
    simp only [pathKeeps, fragmentKeeps, isVisible, Bool.and_eq_true, decide_eq_true_eq,
      UInt8.lt_iff_toNat_lt, ne_eq, ← UInt8.toNat_inj]
    simp at digit ⊢
    grind

theorem encode_eq_encodeWith (keeps : UInt8 → Bool) (cs : List Char) :
    encode keeps cs = Percent.encodeWith keeps (Text.bytes (String.ofList cs)) := by
  rw [Text.bytes_ofList, encode, Percent.encodeWith, List.flatMap_assoc]
  rfl

/-- A segment decodes to what its text decodes to. -/
theorem decode_encode (cs : List Char) :
    Percent.decode (Text.bytes (String.ofList (encode pathKeeps cs))) =
      Percent.decode (Text.bytes (String.ofList cs)) := by
  rw [encode_eq_encodeWith, Percent.decode_encodeWith keepsEscapes_pathKeeps]

theorem plainDots_of_unescaped {cs : List Char}
    (h : Percent.decode (Text.bytes (String.ofList cs)) = Text.bytes (String.ofList cs)) :
    plainDots cs = cs := by
  rw [Text.bytes_ofList] at h
  induction cs using plainDots.induct with
  | case1 e rest escaped ih =>
      -- an encoded point is decoded to a point, which is no percent sign
      have point : Percent.digits? (('2' :: e :: rest).flatMap String.utf8EncodeChar) =
          some (Ascii.point, rest.flatMap String.utf8EncodeChar) := by
        rcases escaped with rfl | rfl <;> rfl
      have begins : ('%' :: '2' :: e :: rest).flatMap String.utf8EncodeChar =
          Ascii.percent :: ('2' :: e :: rest).flatMap String.utf8EncodeChar := rfl
      rw [begins, Percent.decode_percent, point] at h
      exact absurd (List.head_eq_of_cons_eq h) (by decide)
  | case2 e rest plain ih =>
      rw [plainDots, if_neg plain, ih]
      exact Percent.decode_eq_self_of_append (['%', '2'].flatMap String.utf8EncodeChar)
        (by rwa [← List.flatMap_append])
  | case3 c rest other ih =>
      rw [plainDots.eq_2 _ _ other, ih]
      rw [List.flatMap_cons] at h
      exact Percent.decode_eq_self_of_append _ h
  | case4 => rfl

/-- Without escapes, only points are made of points. -/
theorem Literal.isProper {web : Bool} {text : String} (h : Literal web text) :
    IsProper text.toList := by
  have plain : plainDots text.toList = text.toList :=
    plainDots_of_unescaped (by simpa using h.unescaped)
  constructor
  · rw [isDoubleDot, plain, decide_eq_false_iff_not, ← String.toList_ofList (l := ['.', '.']),
      String.toList_inj]
    exact h.notPoints
  · rw [isSingleDot, plain, decide_eq_false_iff_not, ← String.toList_ofList (l := ['.']),
      String.toList_inj]
    exact h.notPoint

theorem isProper_of_toList {text : String} (h : IsProper text.toList) :
    text ≠ "." ∧ text ≠ ".." := by
  constructor
  · rintro rfl
    exact absurd h.2 (by decide)
  · rintro rfl
    exact absurd h.1 (by decide)

/-- Parts of a text are no longer than it in bytes, and a part of the same length is all of it. -/
theorem eq_of_sublist_of_length_le {part whole : List Char} (h : part.Sublist whole)
    (length : (Text.bytes (String.ofList whole)).length ≤
      (Text.bytes (String.ofList part)).length) : part = whole := by
  have bytes : (Text.bytes (String.ofList part)).Sublist (Text.bytes (String.ofList whole)) := by
    rw [Text.bytes_ofList, Text.bytes_ofList]
    exact h.flatMap _
  have same := Text.bytes_inj.1 (bytes.eq_of_length_le length)
  exact String.ofList_inj.1 same

/-- A text is entered as one segment that decodes to it exactly if it is literal. -/
theorem exists_foldl_enter_iff_literal {web : Bool} {text : String}
    (inPath : ∀ c ∈ text.toList, endsPath c = false) (stack : List (List Char)) :
    (∃ segment,
        (splitSlashes web (text.toList.filter isKept)).foldl enter stack = segment :: stack ∧
          Percent.decode (Text.bytes (String.ofList segment)) = Text.bytes text) ↔
      Literal web text := by
  constructor
  · rintro ⟨segment, entered, decoded⟩
    obtain ⟨piece, member, proper, rfl⟩ := eq_encode_of_foldl_enter entered
    obtain ⟨part, undivided⟩ := of_mem_splitSlashes member
    rw [decode_encode] at decoded
    -- the piece decodes to all of the text, so it is all of the text
    have whole : piece = text.toList := by
      refine eq_of_sublist_of_length_le (part.trans List.filter_sublist) ?_
      rw [String.ofList_toList, ← decoded]
      exact Percent.length_decode_le _
    subst whole
    have kept : text.toList.filter isKept = text.toList :=
      List.filter_sublist.eq_of_length_le part.length_le
    rw [String.ofList_toList] at decoded
    exact ⟨List.filter_eq_self.1 kept, inPath, undivided, (isProper_of_toList proper).1,
      (isProper_of_toList proper).2, decoded⟩
  · intro h
    refine ⟨encode pathKeeps text.toList, ?_, ?_⟩
    · rw [List.filter_eq_self.2 h.kept, splitSlashes_of_free h.undivided, List.foldl_cons,
        List.foldl_nil, enter_of_isProper h.isProper]
    · rw [decode_encode, String.ofList_toList, h.unescaped]

end Url

end FormSieve
