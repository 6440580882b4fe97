import FormSieve.Proofs.Json.Form
import FormSieve.Proofs.Json.Numeral

/-!
# How documents may be spelled

The grammar of documents, as a relation between a value as it is written and the bytes that spell
it. Blanks may stand around every part, a character of a text may stand for itself or be given by
an escape, and the members of an object come in the order of the value. A number is spelled by
bytes that are read as that number and nothing else.

The main statement is that every spelling of a value is read as that value, whatever follows it,
as long as the reader allows for the brackets that are open.
-/

namespace FormSieve.Json

open Ascii

/-! ## Blanks -/

/-- A run of blanks. -/
def Blank (bs : Bytes) : Prop := ∀ b ∈ bs, isSpace b = true

theorem Blank.nil : Blank [] := by simp [Blank]

theorem skipSpace_append {blank : Bytes} (h : Blank blank) (bs : Bytes) :
    skipSpace (blank ++ bs) = skipSpace bs :=
  List.dropWhile_append_of_pos h

theorem skipSpace_cons {b : UInt8} (h : isSpace b = false) (bs : Bytes) :
    skipSpace (b :: bs) = b :: bs :=
  List.dropWhile_cons_of_neg (by simp [h])

theorem isNumberByte_of_isSpace {b : UInt8} (h : isSpace b = true) : isNumberByte b = false := by
  simp only [isSpace, Bool.or_eq_true, decide_eq_true_eq] at h
  rcases h with ((rfl | rfl) | rfl) | rfl <;> decide

theorem Ended.append {blank rest : Bytes} (h : Blank blank) (ended : Ended rest) :
    Ended (blank ++ rest) := by
  cases blank with
  | nil => exact ended
  | cons b bs => exact .cons (isNumberByte_of_isSpace (h b (by simp))) _

/-! ## Texts -/

/-- Four hexadecimal digits and their number. -/
def HexUnit (digits : Bytes) (u : Nat) : Prop :=
  digits.length = 4 ∧ digits.foldl addHexDigit (some 0) = some u

/-- The ways in which a character may stand in a text: as itself, by the letter of an escape, by
the digits of one unit, or by those of two units that make up a pair. -/
inductive CharSpelling : Char → Bytes → Prop
  | self {c : Char} (visible : 0x20 ≤ c.toNat) (quote : c ≠ '"') (backslash : c ≠ '\\') :
      CharSpelling c (String.utf8EncodeChar c)
  | letter {b code : UInt8} (h : escapedByte? b = some code) :
      CharSpelling (Char.ofNat code.toNat) [backslash, b]
  | unit {digits : Bytes} {u : Nat} (h : HexUnit digits u) (scalar : u < 0xD800 ∨ 0xDFFF < u) :
      CharSpelling (Char.ofNat u) (backslash :: escapeLetter :: digits)
  | pair {digits digits' : Bytes} {lead trail : Nat} (h : HexUnit digits lead)
      (h' : HexUnit digits' trail) (first : 0xD800 ≤ lead ∧ lead ≤ 0xDBFF)
      (second : 0xDC00 ≤ trail ∧ trail ≤ 0xDFFF) :
      CharSpelling (Char.ofNat (0x10000 + (lead - 0xD800) * 0x400 + (trail - 0xDC00)))
        (backslash :: escapeLetter :: (digits ++ backslash :: escapeLetter :: digits'))

/-- The spellings of a text, without its quotes. -/
inductive TextSpelling : List Char → Bytes → Prop
  | nil : TextSpelling [] []
  | cons {c : Char} {cs : List Char} {bs more : Bytes} (first : CharSpelling c bs)
      (others : TextSpelling cs more) : TextSpelling (c :: cs) (bs ++ more)

theorem withBytes_withBytes (bs more : Bytes) (r : Reading Bytes) :
    withBytes bs (withBytes more r) = withBytes (bs ++ more) r := by
  cases r with
  | error fault => rfl
  | ok read =>
      obtain ⟨content, rest⟩ := read
      simp [withBytes]

@[simp] theorem withBytes_nil (r : Reading Bytes) : withBytes [] r = r := by
  cases r <;> rfl

/-- A byte that stands for itself in a text. -/
def IsPlain (b : UInt8) : Prop := b ≠ quote ∧ b ≠ backslash ∧ space ≤ b

theorem textBytes_plain {bs : Bytes} (h : ∀ b ∈ bs, IsPlain b) (rest : Bytes) :
    textBytes .plain (bs ++ rest) = withBytes bs (textBytes .plain rest) := by
  induction bs with
  | nil => simp
  | cons b bs ih =>
      obtain ⟨quote, backslash, visible⟩ := h b (by simp)
      rw [List.cons_append, textBytes, if_neg quote, if_neg backslash,
        if_neg (UInt8.not_lt.2 visible), ih fun b hb => h b (List.mem_cons_of_mem _ hb),
        withBytes_withBytes, List.singleton_append]

theorem textBytes_backslash (rest : Bytes) :
    textBytes .plain (backslash :: rest) = textBytes .escape rest := rfl

theorem textBytes_escapeLetter (rest : Bytes) :
    textBytes .escape (escapeLetter :: rest) = textBytes (.unit none 4 (some 0)) rest := rfl

theorem textBytes_partner (lead : Nat) (rest : Bytes) :
    textBytes (.partner lead) (backslash :: escapeLetter :: rest) =
      textBytes (.unit (some lead) 4 (some 0)) rest := rfl

theorem textBytes_unit {digits : Bytes} {u : Nat} (h : HexUnit digits u) (lead : Option Nat)
    (rest : Bytes) :
    textBytes (.unit lead 4 (some 0)) (digits ++ rest) =
      match UnitEnd.of lead (some u) with
      | .char c => withBytes (String.utf8EncodeChar c) (textBytes .plain rest)
      | .lead u => textBytes (.partner u) rest
      | .wrong cause => faultAt cause rest := by
  obtain ⟨length, value⟩ := h
  match digits, length with
  | [a, b, c, d], _ =>
    simp only [List.foldl_cons, List.foldl_nil] at value
    simp only [List.cons_append, List.nil_append, textBytes, value, Nat.reduceSub, gt_iff_lt,
      Nat.lt_irrefl, if_false]
    cases UnitEnd.of lead (some u) <;> rfl

theorem isPlain_of_beyond {b : UInt8} (h : 0x80 ≤ b.toNat) : IsPlain b := by
  refine ⟨?_, ?_, UInt8.le_iff_toNat_le.2 (Nat.le_trans (by decide) h)⟩ <;>
    · rintro rfl
      exact absurd h (by decide)

/-- The bytes of a visible character other than the quote and the backslash are plain. -/
theorem isPlain_of_mem_utf8EncodeChar {c : Char} (visible : 0x20 ≤ c.toNat) (quote : c ≠ '"')
    (backslash : c ≠ '\\') {b : UInt8} (h : b ∈ String.utf8EncodeChar c) : IsPlain b := by
  rcases Nat.lt_or_ge c.toNat 0x80 with ascii | beyond
  · rw [Text.utf8EncodeChar_of_ascii ascii, List.mem_singleton] at h
    subst h
    have number : (UInt8.ofNat c.toNat).toNat = c.toNat :=
      UInt8.toNat_ofNat_of_lt' (Nat.lt_trans ascii (by decide))
    refine ⟨fun same => quote ?_, fun same => backslash ?_, UInt8.le_iff_toNat_le.2 ?_⟩
    · exact Char.toNat_inj.1 (by rw [← number, same]; rfl)
    · exact Char.toNat_inj.1 (by rw [← number, same]; rfl)
    · rw [number]
      exact visible
  · exact isPlain_of_beyond (Text.le_of_mem_utf8EncodeChar beyond h)

theorem escapedByte?_ascii {b code : UInt8} (h : escapedByte? b = some code) :
    code.toNat < 0x80 := by
  unfold escapedByte? at h
  split_ifs at h with shown
  · obtain rfl := Option.some.inj h
    rcases shown with rfl | rfl | rfl <;> decide
  all_goals
    obtain rfl := Option.some.inj h
    decide

theorem UnitEnd.of_scalar {u : Nat} (h : u < 0xD800 ∨ 0xDFFF < u) :
    UnitEnd.of none (some u) = .char (Char.ofNat u) := by
  simp only [UnitEnd.of]
  rw [if_neg (by omega), if_neg (by omega)]

theorem UnitEnd.of_lead {u : Nat} (h : 0xD800 ≤ u ∧ u ≤ 0xDBFF) :
    UnitEnd.of none (some u) = .lead u := by
  simp only [UnitEnd.of]
  rw [if_neg (by omega), if_pos h]

theorem UnitEnd.of_trail {u : Nat} (lead : Nat) (h : 0xDC00 ≤ u ∧ u ≤ 0xDFFF) :
    UnitEnd.of (some lead) (some u) =
      .char (Char.ofNat (0x10000 + (lead - 0xD800) * 0x400 + (u - 0xDC00))) := by
  simp only [UnitEnd.of]
  rw [if_pos h]

/-- Every spelling of a character is read as that character. -/
theorem textBytes_char {c : Char} {bs : Bytes} (h : CharSpelling c bs) (rest : Bytes) :
    textBytes .plain (bs ++ rest) =
      withBytes (String.utf8EncodeChar c) (textBytes .plain rest) := by
  cases h with
  | self visible quote backslash =>
      exact textBytes_plain (fun b => isPlain_of_mem_utf8EncodeChar visible quote backslash) rest
  | @letter b code h =>
      have other : b ≠ escapeLetter := by
        rintro rfl
        simp [show escapedByte? escapeLetter = none by decide] at h
      rw [Text.utf8EncodeChar_ofNat_of_ascii (escapedByte?_ascii h), List.cons_append,
        textBytes_backslash]
      simp [textBytes, other, h]
  | unit h scalar =>
      rw [List.cons_append, List.cons_append, textBytes_backslash, textBytes_escapeLetter,
        textBytes_unit h, UnitEnd.of_scalar scalar]
  | pair h h' first second =>
      rw [List.cons_append, List.cons_append, List.append_assoc, List.cons_append,
        List.cons_append, textBytes_backslash, textBytes_escapeLetter, textBytes_unit h,
        UnitEnd.of_lead first]
      dsimp only
      rw [textBytes_partner, textBytes_unit h', UnitEnd.of_trail _ second]

/-- Every spelling of a text is read as that text. -/
theorem text_of_spelling {s : String} {bs : Bytes} (h : TextSpelling s.toList bs) (rest : Bytes) :
    text (bs ++ quote :: rest) = .ok (s, rest) := by
  have content : ∀ {cs : List Char} {bs : Bytes}, TextSpelling cs bs →
      textBytes .plain (bs ++ quote :: rest) = .ok (Text.encode cs, rest) := by
    intro cs bs h
    induction h with
    | nil => rfl
    | cons first _ ih =>
        rw [List.append_assoc, textBytes_char first, ih]
        rfl
  rw [text, content h, Reading.andThen_ok, ← Text.bytes_eq_encode, Text.ofBytes?_bytes]

/-! ## Entries between commas -/

/-- One or more entries with commas between them and blanks around them. -/
inductive Separated (entry : α → Bytes → Prop) : List α → Bytes → Prop
  | last {a : α} {before text after : Bytes} (front : Blank before) (h : entry a text)
      (behind : Blank after) : Separated entry [a] (before ++ (text ++ after))
  | more {a : α} {as : List α} {before text after others : Bytes} (front : Blank before)
      (h : entry a text) (behind : Blank after) (next : Separated entry as others) :
      Separated entry (a :: as) (before ++ (text ++ (after ++ comma :: others)))

/-- What may stand between two brackets. -/
inductive Entries (entry : α → Bytes → Prop) : List α → Bytes → Prop
  | none {blank : Bytes} (h : Blank blank) : Entries entry [] blank
  | some {as : List α} {bs : Bytes} (h : Separated entry as bs) : Entries entry as bs

/-- The reader reads every spelling of an entry, with blanks before it, as that entry. -/
def Reads (read : Bytes → Reading α) (entry : α → Bytes → Prop) : Prop :=
  ∀ ⦃a : α⦄ ⦃blank text rest : Bytes⦄, entry a text → Blank blank → Ended rest →
    read (blank ++ (text ++ rest)) = .ok (a, rest)

/-- Every spelling of an entry starts with a byte that is neither a blank nor a closing
bracket. -/
def Starts (entry : α → Bytes → Prop) : Prop :=
  ∀ ⦃a : α⦄ ⦃text : Bytes⦄, entry a text →
    ∃ b more, text = b :: more ∧ isSpace b = false ∧ b ≠ rightBracket

/-- What stands before an entry: nothing before the first one, and a comma before others. -/
inductive Lead : Bool → Bytes → Prop
  | opening : Lead true []
  | comma {blank : Bytes} (h : Blank blank) : Lead false (blank ++ [Ascii.comma])

section Entries

variable {entry : α → Bytes → Prop} {as : List α} {bs blank : Bytes}

theorem Separated.length_le (h : Separated entry as bs) (starts : Starts entry) :
    as.length ≤ bs.length := by
  induction h with
  | last _ h _ =>
      obtain ⟨b, more, rfl, -, -⟩ := starts h
      simp only [List.length_cons, List.length_nil, List.length_append]
      omega
  | more _ h _ _ ih =>
      simp only [List.length_cons, List.length_append]
      omega

theorem nextItem_of_lead {first : Bool} {lead : Bytes} (h : Lead first lead) (front : Blank blank)
    {b : UInt8} (visible : isSpace b = false) (other : b ≠ rightBracket) (rest : Bytes) :
    nextItem first (lead ++ (blank ++ b :: rest)) = .ok (true, b :: rest) := by
  cases h with
  | opening =>
      rw [List.nil_append, nextItem, skipSpace_append front, skipSpace_cons visible]
      dsimp only
      rw [if_neg other, if_pos rfl]
  | comma behind =>
      rw [nextItem, List.append_assoc, skipSpace_append behind, List.singleton_append,
        skipSpace_cons (by decide)]
      dsimp only
      rw [if_neg (by decide), if_neg Bool.false_ne_true, if_pos rfl, skipSpace_append front,
        skipSpace_cons visible]
      dsimp only
      rw [if_neg other]

theorem nextItem_of_end (first : Bool) (behind : Blank blank) (rest : Bytes) :
    nextItem first (blank ++ rightBracket :: rest) = .ok (false, rightBracket :: rest) := by
  rw [nextItem, skipSpace_append behind, skipSpace_cons (by decide)]
  rfl

theorem itemsFrom_of_separated {read : Bytes → Reading α} (reads : Reads read entry)
    (starts : Starts entry) (h : Separated entry as bs) {first : Bool} {lead : Bytes}
    (hlead : Lead first lead) {bound : Nat} (enough : as.length < bound) (rest : Bytes) :
    itemsFrom read bound first (lead ++ (bs ++ rightBracket :: rest)) =
      .ok (as, rightBracket :: rest) := by
  induction h generalizing first lead bound with
  | @last a before text after front h behind =>
      obtain ⟨b, more, rfl, visible, other⟩ := starts h
      obtain ⟨bound, rfl⟩ := Nat.exists_eq_add_of_le' (Nat.succ_le_of_lt enough)
      have ended : Ended (after ++ rightBracket :: rest) := .append behind (.cons (by decide) _)
      have here := reads h Blank.nil ended
      rw [List.nil_append, List.cons_append] at here
      simp only [List.length_singleton]
      rw [itemsFrom, List.append_assoc, List.append_assoc, List.cons_append,
        nextItem_of_lead hlead front visible other]
      simp only [Reading.andThen_ok, if_true, here, itemsFrom, nextItem_of_end false behind,
        Bool.false_eq_true, if_false]
  | @more a as before text after others front h behind _ ih =>
      obtain ⟨b, more, rfl, visible, other⟩ := starts h
      obtain ⟨bound, rfl⟩ := Nat.exists_eq_add_one_of_ne_zero (Nat.ne_zero_of_lt enough)
      have ended : Ended (after ++ comma :: (others ++ rightBracket :: rest)) :=
        .append behind (.cons (by decide) _)
      have here := reads h Blank.nil ended
      have next := ih (.comma behind) (Nat.lt_of_succ_lt_succ enough)
      rw [List.nil_append, List.cons_append] at here
      rw [List.append_assoc, List.singleton_append] at next
      rw [itemsFrom, List.append_assoc, List.append_assoc, List.cons_append, List.append_assoc,
        List.cons_append, nextItem_of_lead hlead front visible other]
      simp only [Reading.andThen_ok, if_true, here, next]

/-- A list is read from every spelling of its items. -/
theorem items_of_entries {read : Bytes → Reading α} (reads : Reads read entry)
    (starts : Starts entry) (h : Entries entry as bs) (rest : Bytes) :
    items read (bs ++ rightBracket :: rest) = .ok (as, rest) := by
  have inside : itemsFrom read ((bs ++ rightBracket :: rest).length + 1) true
      (bs ++ rightBracket :: rest) = .ok (as, rightBracket :: rest) := by
    cases h with
    | none h =>
        rw [itemsFrom, nextItem_of_end true h]
        rfl
    | some h =>
        refine itemsFrom_of_separated reads starts h .opening ?_ rest
        have := h.length_le starts
        rw [List.length_append]
        omega
  rw [items, inside, closed, closeList, skipSpace_cons (by decide)]
  rfl

end Entries

/-! ## Members -/

/-- The spellings of a member: its name, a colon, and its value. -/
inductive MemberSpelling (item : β → Bytes → Prop) : String × β → Bytes → Prop
  | intro {name : String} {v : β} {nameText before after text : Bytes}
      (hname : TextSpelling name.toList nameText) (front : Blank before) (behind : Blank after)
      (h : item v text) :
      MemberSpelling item (name, v)
        (quote :: (nameText ++ quote :: (before ++ colon :: (after ++ text))))

/-- How a member is taken in: `step` says what becomes of the state. -/
def TakesIn (member : σ → String → Bytes → Reading σ) (step : σ → String → β → Option σ)
    (item : β → Bytes → Prop) : Prop :=
  ∀ ⦃state final : σ⦄ ⦃name : String⦄ ⦃v : β⦄ ⦃before after text rest : Bytes⦄,
    step state name v = some final → item v text → Blank before → Blank after → Ended rest →
      member state name (before ++ colon :: (after ++ (text ++ rest))) = .ok (final, rest)

section Members

variable {item : β → Bytes → Prop} {ms : List (String × β)} {bs blank : Bytes}

theorem MemberSpelling.starts : Starts (MemberSpelling item) := by
  rintro _ _ ⟨⟩
  exact ⟨quote, _, rfl, by decide, by decide⟩

theorem nextName_of_lead {first : Bool} {lead : Bytes} (h : Lead first lead) (front : Blank blank)
    {name : String} {nameText : Bytes} (hname : TextSpelling name.toList nameText)
    (rest : Bytes) :
    nextName first (lead ++ (blank ++ quote :: (nameText ++ quote :: rest))) =
      .ok (some name, rest) := by
  cases h with
  | opening =>
      rw [List.nil_append, nextName, skipSpace_append front, skipSpace_cons (by decide)]
      dsimp only
      rw [if_neg (by decide), if_pos rfl, if_pos rfl, text_of_spelling hname]
      rfl
  | comma behind =>
      rw [nextName, List.append_assoc, skipSpace_append behind, List.singleton_append,
        skipSpace_cons (by decide)]
      dsimp only
      rw [if_neg (by decide), if_neg Bool.false_ne_true, if_pos rfl, skipSpace_append front,
        skipSpace_cons (by decide)]
      dsimp only
      rw [if_pos rfl, text_of_spelling hname]
      rfl

theorem nextName_of_end (first : Bool) (behind : Blank blank) (rest : Bytes) :
    nextName first (blank ++ rightBrace :: rest) = .ok (none, rightBrace :: rest) := by
  rw [nextName, skipSpace_append behind, skipSpace_cons (by decide)]
  rfl

theorem pastColon_of_blank (front : Blank blank) (rest : Bytes) :
    pastColon (blank ++ colon :: rest) = .ok ((), rest) := by
  rw [pastColon, skipSpace_append front, skipSpace_cons (by decide)]
  rfl

variable {member : σ → String → Bytes → Reading σ} {step : σ → String → β → Option σ}

theorem membersFrom_of_separated (takes : TakesIn member step item)
    (h : Separated (MemberSpelling item) ms bs) {first : Bool} {lead : Bytes}
    (hlead : Lead first lead) {bound : Nat} (enough : ms.length < bound) {state final : σ}
    (fold : ms.foldlM (fun state m => step state m.1 m.2) state = some final) (rest : Bytes) :
    membersFrom member bound first state (lead ++ (bs ++ rightBrace :: rest)) =
      .ok (final, rightBrace :: rest) := by
  induction h generalizing first lead bound state with
  | @last a before text after front h behind =>
      obtain ⟨hname, before', after', h⟩ := h
      obtain ⟨state', here, done⟩ := Option.bind_eq_some_iff.1 fold
      obtain rfl := Option.some.inj done
      obtain ⟨bound, rfl⟩ := Nat.exists_eq_add_of_le' (Nat.succ_le_of_lt enough)
      have ended : Ended (after ++ rightBrace :: rest) := .append behind (.cons (by decide) _)
      simp only [List.append_assoc, List.cons_append, List.length_singleton]
      rw [membersFrom, nextName_of_lead hlead front hname, Reading.andThen_ok]
      dsimp only
      rw [takes here h before' after' ended, Reading.andThen_ok, membersFrom,
        nextName_of_end false behind]
      rfl
  | @more a as before text after others front h behind _ ih =>
      obtain ⟨hname, before', after', h⟩ := h
      obtain ⟨state', here, fold⟩ := Option.bind_eq_some_iff.1 fold
      obtain ⟨bound, rfl⟩ := Nat.exists_eq_add_one_of_ne_zero (Nat.ne_zero_of_lt enough)
      have ended : Ended (after ++ comma :: (others ++ rightBrace :: rest)) :=
        .append behind (.cons (by decide) _)
      have next := ih (.comma behind) (Nat.lt_of_succ_lt_succ enough) fold
      rw [List.append_assoc, List.singleton_append] at next
      simp only [List.append_assoc, List.cons_append]
      rw [membersFrom, nextName_of_lead hlead front hname, Reading.andThen_ok]
      dsimp only
      rw [takes here h before' after' ended, Reading.andThen_ok, next]

/-- The members of an object are taken in one by one from every spelling of them. -/
theorem members_of_entries (takes : TakesIn member step item)
    (h : Entries (MemberSpelling item) ms bs) {start final : σ}
    (fold : ms.foldlM (fun state m => step state m.1 m.2) start = some final) (rest : Bytes) :
    members member start (bs ++ rightBrace :: rest) = .ok (final, rightBrace :: rest) := by
  cases h with
  | none h =>
      obtain rfl := Option.some.inj fold
      rw [members, membersFrom, nextName_of_end true h]
      rfl
  | some h =>
      refine membersFrom_of_separated takes h .opening ?_ fold rest
      have := h.length_le MemberSpelling.starts
      rw [List.length_append]
      omega

theorem closeObject_rightBrace (rest : Bytes) :
    closeObject (rightBrace :: rest) = ⟨rest, none⟩ := by
  rw [closeObject, skipSpace_cons (by decide)]
  rfl

end Members

/-! ## Values -/

/-- The spellings of a number: bytes that are read as that number. -/
inductive NumberSpelling : Number → Bytes → Prop
  | positive {n : Number} {bs : Bytes} (h : number false bs = .ok (n, [])) : NumberSpelling n bs
  | negative {n : Number} {bs : Bytes} (h : number true bs = .ok (n, [])) :
      NumberSpelling n (minus :: bs)

/-- The spellings of a value whose nested values are spelled as `nested` says, or that must not
have any. -/
inductive SpellingWith : Option (Value → Bytes → Prop) → Value → Bytes → Prop
  | null (nested : Option (Value → Bytes → Prop)) : SpellingWith nested .null (0x6E :: ull)
  | true (nested : Option (Value → Bytes → Prop)) :
      SpellingWith nested (.boolean true) (0x74 :: rue)
  | false (nested : Option (Value → Bytes → Prop)) :
      SpellingWith nested (.boolean false) (0x66 :: alse)
  | number (nested : Option (Value → Bytes → Prop)) {n : Number} {bs : Bytes}
      (h : NumberSpelling n bs) : SpellingWith nested (.number n) bs
  | text (nested : Option (Value → Bytes → Prop)) {s : String} {bs : Bytes}
      (h : TextSpelling s.toList bs) : SpellingWith nested (.text s) (quote :: (bs ++ [quote]))
  | array {item : Value → Bytes → Prop} {vs : List Value} {bs : Bytes} (h : Entries item vs bs) :
      SpellingWith (some item) (.array vs) (leftBracket :: (bs ++ [rightBracket]))
  | object {item : Value → Bytes → Prop} {ms : Members} {bs : Bytes}
      (h : Entries (MemberSpelling item) ms bs) :
      SpellingWith (some item) (.object ms) (leftBrace :: (bs ++ [rightBrace]))

/-- The spellings of a value, as it is written, in which at most so many brackets are open at
once. -/
def Value.Spelling : Nat → Value → Bytes → Prop
  | 0 => SpellingWith none
  | room + 1 => SpellingWith (some (Value.Spelling room))

/-! ## Reading what is spelled -/

section Values

theorem isSpace_of_digit {b : UInt8} (h : (digit? b).isSome = true) : isSpace b = false := by
  simp only [isSpace, Bool.or_eq_false_iff, decide_eq_false_iff_not]
  exact ⟨⟨⟨ne_of_digit h (by decide), ne_of_digit h (by decide)⟩, ne_of_digit h (by decide)⟩,
    ne_of_digit h (by decide)⟩

theorem exists_digit_of_number {negative : Bool} {bs rest : Bytes} {n : Number}
    (h : number negative bs = .ok (n, rest)) :
    ∃ b more, bs = b :: more ∧ (digit? b).isSome = true := by
  match bs with
  | [] => cases h
  | b :: more =>
    refine ⟨b, more, rfl, ?_⟩
    cases digit : digit? b with
    | none =>
        simp only [number, digit] at h
        cases h
    | some d => rfl

variable {nested : Option (Value → Bytes → Prop)} {read : Option (Bytes → Reading Value)}

theorem SpellingWith.starts : Starts (SpellingWith nested) := by
  intro v bs h
  cases h with
  | number _ h =>
      cases h with
      | positive h =>
          obtain ⟨b, more, rfl, digit⟩ := exists_digit_of_number h
          exact ⟨b, more, rfl, isSpace_of_digit digit, ne_of_digit digit (by decide)⟩
      | negative h => exact ⟨_, _, rfl, by decide, by decide⟩
  | _ => exact ⟨_, _, rfl, by decide, by decide⟩

theorem word_append (letters rest : Bytes) : word letters (letters ++ rest) = .ok ((), rest) := by
  induction letters with
  | nil => rfl
  | cons b letters ih => simpa [word] using ih

/-- A number is read as a value from every spelling. -/
theorem valueWith_of_number {n : Number} {bs rest : Bytes} (h : NumberSpelling n bs)
    (ended : Ended rest) : valueWith .written read (bs ++ rest) = .ok (.number n, rest) := by
  cases h with
  | positive h =>
      obtain ⟨b, more, rfl, digit⟩ := exists_digit_of_number h
      have whole : number false (b :: (more ++ rest)) = .ok (n, rest) :=
        number_readsOn ended false _ _ _ h
      rw [List.cons_append, valueWith_digit (skipSpace_cons (isSpace_of_digit digit) _) digit,
        whole]
      rfl
  | @negative bs h =>
      have whole : number true (bs ++ rest) = .ok (n, rest) := number_readsOn ended true _ _ _ h
      rw [List.cons_append, valueWith_minus (skipSpace_cons (by decide) _), whole]
      rfl

/-- Reading a member takes it in behind those that were read before. -/
theorem takesIn_valueMember {item : Value → Bytes → Prop} {read : Bytes → Reading Value}
    (reads : Reads read item) :
    TakesIn (valueMember .written read) (fun ms name v => some (ms ++ [(name, v)])) item := by
  rintro state _ name v before after text rest ⟨⟩ h before' after' ended
  rw [valueMember, pastColon_of_blank before', Reading.andThen_ok, reads h after' ended]
  rfl

theorem foldlM_append (start ms : Members) :
    ms.foldlM (fun ms m => some (ms ++ [(m.1, m.2)])) start = some (start ++ ms) := by
  induction ms generalizing start with
  | nil => simp
  | cons m ms ih => simp [ih]

/-- One bracket more: where nested values are read from all their spellings, so are those around
them. -/
theorem reads_valueWith
    (inside : ∀ item ∈ nested, ∃ reader ∈ read, Reads reader item ∧ Starts item) :
    Reads (valueWith .written read) (SpellingWith nested) := by
  intro v blank bs rest h front ended
  have start : valueWith .written read (blank ++ (bs ++ rest)) =
      valueWith .written read (bs ++ rest) := by
    rw [valueWith, skipSpace_append front, ← valueWith]
  rw [start]
  cases h with
  | null =>
      rw [List.cons_append, valueWith_null (skipSpace_cons (by decide) _), word_append]
      rfl
  | true =>
      rw [List.cons_append, valueWith_true (skipSpace_cons (by decide) _), word_append]
      rfl
  | false =>
      rw [List.cons_append, valueWith_false (skipSpace_cons (by decide) _), word_append]
      rfl
  | number _ h => exact valueWith_of_number h ended
  | text _ h =>
      rw [List.cons_append, List.append_assoc, List.singleton_append,
        valueWith_quote (skipSpace_cons (by decide) _), text_of_spelling h]
      rfl
  | array h =>
      obtain ⟨reader, rfl, reads, starts⟩ := inside _ rfl
      rw [List.cons_append, List.append_assoc, List.singleton_append,
        valueWith_leftBracket (skipSpace_cons (by decide) _)]
      dsimp only
      rw [items_of_entries reads starts h]
      rfl
  | object h =>
      obtain ⟨reader, rfl, reads, -⟩ := inside _ rfl
      rw [List.cons_append, List.append_assoc, List.singleton_append,
        valueWith_leftBrace (skipSpace_cons (by decide) _)]
      dsimp only
      rw [members_of_entries (takesIn_valueMember reads) h (foldlM_append [] _), closed,
        closeObject_rightBrace]
      rfl

theorem Value.Spelling.starts (room : Nat) : Starts (Value.Spelling room) := by
  cases room <;> exact SpellingWith.starts

/-- Every spelling of a value is read as that value. -/
theorem reads_valueAsWritten (room : Nat) : Reads (valueAsWritten room) (Value.Spelling room) := by
  induction room with
  | zero =>
      change Reads (valueWith .written none) (SpellingWith none)
      exact reads_valueWith (by simp)
  | succ room ih =>
      change Reads (valueWith .written (some (valueAsWritten room)))
        (SpellingWith (some (Value.Spelling room)))
      refine reads_valueWith ?_
      rintro _ ⟨⟩
      exact ⟨valueAsWritten room, rfl, ih, Value.Spelling.starts room⟩

/-- A document spells a value, with blanks around it. -/
theorem decode_valueAsWritten_of_spelling {v : Value} {before bs after : Bytes}
    (h : v.Spelling maxDepth bs) (front : Blank before) (behind : Blank after) :
    decode valueAsWritten (before ++ (bs ++ after)) = .ok v := by
  have ended : Ended after := by simpa using Ended.append behind .nil
  have nothing : skipSpace after = [] := by simpa [skipSpace] using skipSpace_append behind []
  rw [decode, reads_valueAsWritten maxDepth h front ended]
  dsimp only
  rw [nothing]

end Values

end FormSieve.Json
