import FormSieve.Proofs.Json.Records

/-!
# What is read is also passed over

Passing over a value checks less than reading it. Wherever a value is read, it is passed over to
the same place, so members that a record does not know do no harm as long as they are values.
-/

namespace FormSieve.Json

open Ascii

/-- Wherever `r` comes to, `pass` comes to as well. -/
def Reading.PassedBy (r : Reading α) (pass : Reading Unit) : Prop :=
  ∀ a rest, r = .ok (a, rest) → pass = .ok ((), rest)

namespace Reading.PassedBy

theorem error (fault : Fault) (pass : Reading Unit) :
    Reading.PassedBy (.error fault : Reading α) pass := by
  rintro _ _ ⟨⟩

theorem faultAt (cause : Cause) (rest : Bytes) (pass : Reading Unit) :
    Reading.PassedBy (Json.faultAt cause rest : Reading α) pass :=
  error _ pass

theorem ok (a : α) (rest : Bytes) : Reading.PassedBy (.ok (a, rest)) (.ok ((), rest)) := by
  rintro _ _ ⟨⟩
  rfl

theorem map {r : Reading α} {pass : Reading Unit} (h : r.PassedBy pass) (f : α → Bytes → β) :
    (r.andThen fun a rest => .ok (f a rest, rest)).PassedBy pass := by
  intro b rest read
  obtain ⟨a, _, first, same⟩ := andThen_eq_ok_iff.1 read
  cases same
  exact h a rest first

end Reading.PassedBy

/-! ## Texts -/

/-- What is left to be passed over of a text that is being read. -/
def TextState.passed : TextState → SkipState
  | .plain => .plain
  | .escape => .escape
  | .unit _ left value => .unit left value.isSome
  | .partner _ => .plain
  | .partnerLetter _ => .escape

theorem isSome_addHexDigit (value : Option Nat) (b : UInt8) :
    (addHexDigit value b).isSome = (value.isSome && (hexDigit? b).isSome) := by
  unfold addHexDigit
  cases value <;> cases hexDigit? b <;> rfl

/-- An escape is only accepted if all of its digits are digits. -/
theorem UnitEnd.isSome_of {lead value : Option Nat}
    (h : UnitEnd.of lead value ≠ .wrong .badEscape) : value.isSome = true := by
  cases value with
  | none => exact absurd rfl h
  | some u => rfl

theorem textBytes_passed (state : TextState) (bs : Bytes) :
    (textBytes state bs).PassedBy (skipText state.passed bs) := by
  fun_induction textBytes state bs with
  | case1 => exact .faultAt _ _ _
  | case2 rest => exact .ok _ _
  | case3 rest _ ih => exact ih
  | case4 => exact .faultAt _ _ _
  | case5 b rest quote backslash control ih =>
      rw [TextState.passed, skipText, if_neg quote, if_neg backslash, if_neg control]
      exact ih.map _
  | case6 rest ih => exact ih
  | case7 b rest letter c escaped ih =>
      rw [TextState.passed, skipText, if_neg letter, if_pos (by rw [escaped]; rfl)]
      exact ih.map _
  | case8 => exact .faultAt _ _ _
  | case9 lead left value b rest value' more ih =>
      rw [TextState.passed, skipText, if_pos more, ← isSome_addHexDigit]
      exact ih
  | case10 lead left value b rest value' last c ends ih =>
      have good : value'.isSome = true := UnitEnd.isSome_of (by rw [ends]; simp)
      rw [TextState.passed, skipText, if_neg last, ← isSome_addHexDigit, if_pos good]
      exact ih.map _
  | case11 lead left value b rest value' last u ends ih =>
      have good : value'.isSome = true := UnitEnd.isSome_of (by rw [ends]; simp)
      rw [TextState.passed, skipText, if_neg last, ← isSome_addHexDigit, if_pos good]
      exact ih
  | case12 => exact .faultAt _ _ _
  | case13 lead rest ih => exact ih
  | case14 => exact .faultAt _ _ _
  | case15 lead rest ih => exact ih
  | case16 => exact .faultAt _ _ _

theorem text_passed (bs : Bytes) : (text bs).PassedBy (skipText .plain bs) := by
  intro s rest h
  obtain ⟨content, between, read, same⟩ := Reading.andThen_eq_ok_iff.1 h
  split at same
  · cases same
    exact textBytes_passed .plain bs content rest read
  · cases same

/-! ## Numbers -/

/-- Digits that were taken and digits that were dropped are all digits. -/
theorem countDigits_eq (significand : Nat) (bs : Bytes) :
    countDigits bs =
      ((takeDigits significand bs).2.1 + (countDigits (takeDigits significand bs).2.2).1,
        (countDigits (takeDigits significand bs).2.2).2) := by
  fun_induction takeDigits significand bs with
  | case1 => rfl
  | case2 => simp
  | case3 significand b rest d digit fits s count left taken ih =>
      rw [taken] at ih
      rw [countDigits, if_pos (by simp [digit]), ih]
      simp [Nat.add_right_comm]
  | case4 => simp

theorem exponentDigits_rest (value : Nat) (bs : Bytes) :
    (∀ e rest, exponentDigits value bs = (some e, rest) → (countDigits bs).2 = rest) ∧
      ∀ rest, exponentDigits value bs = (none, rest) →
        (countDigits bs).2 = (countDigits rest).2 := by
  fun_induction exponentDigits value bs with
  | case1 => simp [countDigits]
  | case2 value b rest other => simp [countDigits, other]
  | case3 value b rest d digit fits ih => simpa [countDigits, digit] using ih
  | case4 value b rest d digit large => simp [countDigits, digit]

theorem floatOfParts_passed (negative : Bool) (significand : Nat) (exponent : Int) (rest : Bytes) :
    (floatOfParts negative significand exponent rest).PassedBy (.ok ((), rest)) := by
  unfold floatOfParts
  split
  · exact .ok _ _
  · exact .faultAt _ _ _

theorem wholeNumber_passed (negative : Bool) (significand : Nat) (rest : Bytes) :
    (wholeNumber negative significand rest).PassedBy (.ok ((), rest)) := by
  unfold wholeNumber
  split_ifs
  · exact .ok _ _
  · exact floatOfParts_passed _ _ _ _
  · exact .ok _ _
  · exact floatOfParts_passed _ _ _ _

/-- Passes over the digits of an exponent. -/
def skipExponentDigits : Bytes → Reading Unit
  | [] => faultAt .badNumber []
  | b :: rest =>
    if (digit? b).isSome then .ok ((), (countDigits rest).2) else faultAt .badNumber rest

theorem skipExponent_cons (b : UInt8) (rest : Bytes) :
    skipExponent (b :: rest) =
      skipExponentDigits (if b = plus ∨ b = minus then rest else b :: rest) := by
  simp only [skipExponent]
  split <;> (next same => rw [same]; rfl)

theorem exponentValue_passed (negative down : Bool) (significand : Nat) (exponent : Int)
    (bs : Bytes) :
    (exponentValue negative down significand exponent bs).PassedBy (skipExponentDigits bs) := by
  cases bs with
  | nil => exact .faultAt _ _ _
  | cons b bs =>
      simp only [exponentValue, skipExponentDigits]
      cases digit : digit? b with
      | none => exact .faultAt _ _ _
      | some d =>
          obtain ⟨within, beyond⟩ := exponentDigits_rest d bs
          simp only [Option.isSome_some, if_true]
          cases read : exponentDigits d bs with
          | mk value rest =>
              cases value with
              | some e =>
                  rw [within e rest read]
                  exact floatOfParts_passed _ _ _ _
              | none =>
                  rw [beyond rest read]
                  dsimp only
                  split
                  · exact .faultAt _ _ _
                  · exact .ok _ _

theorem exponentPart_passed (negative : Bool) (significand : Nat) (exponent : Int) (bs : Bytes) :
    (exponentPart negative significand exponent bs).PassedBy (skipExponent bs) := by
  cases bs with
  | nil => exact .faultAt _ _ _
  | cons b bs =>
      rw [exponentPart_cons, skipExponent_cons]
      by_cases up : b = plus
      · rw [if_pos up, if_pos (.inl up)]
        exact exponentValue_passed _ _ _ _ _
      · by_cases down : b = minus
        · rw [if_neg up, if_pos down, if_pos (.inr down)]
          exact exponentValue_passed _ _ _ _ _
        · rw [if_neg up, if_neg down, if_neg (not_or.2 ⟨up, down⟩)]
          exact exponentValue_passed _ _ _ _ _

/-- Passes over an exponent if there is one. -/
def skipExponentIfAny (bs : Bytes) : Reading Unit :=
  match exponentMark? bs with
  | some rest => skipExponent rest
  | none => .ok ((), bs)

/-- Passes over a fraction, from behind its point. -/
def skipFraction (bs : Bytes) : Reading Unit :=
  if (countDigits bs).1 = 0 then faultOn .badNumber (countDigits bs).2
  else skipExponentIfAny (countDigits bs).2

/-- Passes over what follows the digits before the point. -/
def skipNumberTail : Bytes → Reading Unit
  | [] => .ok ((), [])
  | c :: tail =>
    if (digit? c).isSome then faultAt .badNumber tail
    else if c = point then skipFraction tail
    else skipExponentIfAny (c :: tail)

theorem skipNumber_cons (b : UInt8) (rest : Bytes) :
    skipNumber (b :: rest) =
      match digit? b with
      | none => faultAt .badNumber rest
      | some d => skipNumberTail (if d = 0 then rest else (countDigits rest).2) := by
  rw [skipNumber]
  cases digit? b with
  | none => rfl
  | some d =>
      dsimp only
      cases (if d = 0 then rest else (countDigits rest).2) <;> rfl

theorem fractionPart_passed (negative : Bool) (significand : Nat) (exponent : Int) (bs : Bytes) :
    (fractionPart negative significand exponent bs).PassedBy (skipFraction bs) := by
  simp only [fractionPart, skipFraction, countDigits_eq significand bs, Nat.add_eq_zero_iff]
  split
  · split
    · exact .faultAt _ _ _
    · exact .faultAt _ _ _
  · unfold skipExponentIfAny
    cases exponentMark? (countDigits (takeDigits significand bs).2.2).2 with
    | none => exact floatOfParts_passed _ _ _ _
    | some behind => exact exponentPart_passed _ _ _ _

theorem numberTail_passed (negative : Bool) (significand exponent : Nat) {bs : Bytes}
    (ended : ∀ b ∈ bs.head?, digit? b = none) :
    (numberTail negative significand exponent bs).PassedBy (skipNumberTail bs) := by
  have whole : ∀ bs : Bytes, Reading.PassedBy
      (if exponent = 0 then wholeNumber negative significand bs
        else floatOfParts negative significand exponent bs) (.ok ((), bs)) := by
    intro bs
    split
    · exact wholeNumber_passed _ _ _
    · exact floatOfParts_passed _ _ _ _
  cases bs with
  | nil => exact whole []
  | cons c tail =>
      simp only [numberTail, skipNumberTail, ended c rfl, Option.isSome_none, Bool.false_eq_true,
        if_false]
      split
      · exact fractionPart_passed _ _ _ _
      · unfold skipExponentIfAny
        cases exponentMark? (c :: tail) with
        | none => exact whole (c :: tail)
        | some behind => exact exponentPart_passed _ _ _ _

/-- What follows digits is no digit. -/
theorem digit?_countDigits (bs : Bytes) : ∀ b ∈ (countDigits bs).2.head?, digit? b = none := by
  fun_induction countDigits bs with
  | case1 => simp
  | case2 b rest _ count left counted ih => rwa [counted] at ih
  | case3 b rest other =>
      rintro _ ⟨⟩
      simpa using other

theorem number_passed (negative : Bool) (bs : Bytes) :
    (number negative bs).PassedBy (skipNumber bs) := by
  cases bs with
  | nil => exact .faultAt _ _ _
  | cons b bs =>
      rw [skipNumber_cons]
      simp only [number]
      rcases digit? b with _ | _ | d
      · exact .faultAt _ _ _
      · change Reading.PassedBy _ (skipNumberTail bs)
        cases bs with
        | nil => exact numberTail_passed _ _ _ (by simp)
        | cons c bs =>
            change Reading.PassedBy (if (digit? c).isSome then faultOn .badNumber (c :: bs)
              else numberTail negative 0 0 (c :: bs)) _
            split
            · exact .faultAt _ _ _
            · next other => exact numberTail_passed _ _ _ (by simpa using other)
      · change Reading.PassedBy _ (skipNumberTail (countDigits bs).2)
        rw [countDigits_eq (d + 1) bs]
        exact numberTail_passed _ _ _ (digit?_countDigits _)

/-! ## Values -/

theorem skipSpace_skipSpace (bs : Bytes) : skipSpace (skipSpace bs) = skipSpace bs := by
  cases h : skipSpace bs with
  | nil => rfl
  | cons b rest =>
      have visible : isSpace b = false := by
        have first := List.head?_dropWhile_not isSpace bs
        simp only [skipSpace] at h
        rw [h] at first
        simpa using first
      exact skipSpace_cons visible rest

/-- From `bs` the value in front of `rest` is passed over, whatever brackets are open. Of the
steps that are allowed for, some are taken, less than three for every byte. -/
def Passes (bs rest : Bytes) : Prop :=
  ∃ steps, steps + 3 + 3 * rest.length ≤ 3 * bs.length ∧
    ∀ bound outer, skipFrom (bound + steps + 1) .value outer bs =
      skipFrom bound (.separator true) outer rest

/-- An entry of a bracket is passed over. -/
def PassesEntry (inner : Bracket) (bs rest : Bytes) : Prop :=
  ∃ steps, steps + 1 + 3 * rest.length ≤ 3 * bs.length ∧
    ∀ bound outer, skipFrom (bound + steps) .entry (inner :: outer) bs =
      skipFrom bound (.separator true) (inner :: outer) rest

/-- What follows an entry, or an opening bracket, is passed over up to and including the closing
bracket. -/
def PassesOut (inner : Bracket) (comma : Bool) (bs rest : Bytes) : Prop :=
  ∃ steps, steps + 3 * rest.length ≤ 3 * bs.length ∧
    ∀ bound outer, skipFrom (bound + steps) (.separator comma) (inner :: outer) bs =
      skipFrom bound (.separator true) outer rest

section Passes

variable {bs rest between : Bytes} {inner : Bracket}

/-- Blanks before a value do not matter. -/
theorem Passes.of_skipSpace (h : Passes (skipSpace bs) rest) : Passes bs rest := by
  obtain ⟨steps, le, step⟩ := h
  have shorter := length_skipSpace_le bs
  refine ⟨steps, by omega, fun bound outer => ?_⟩
  rw [← step bound outer, skipFrom, skipFrom, skipSpace_skipSpace]

theorem Passes.entry (h : Passes bs rest) : PassesEntry .square bs rest := by
  obtain ⟨steps, le, step⟩ := h
  refine ⟨steps + 2, by omega, fun bound outer => ?_⟩
  rw [← step bound]
  rfl

theorem Passes.entry_of_name (name : skipName bs = .ok ((), between)) (h : Passes between rest)
    (shorter : between.length ≤ bs.length) : PassesEntry .curly bs rest := by
  obtain ⟨steps, le, step⟩ := h
  refine ⟨steps + 2, by omega, fun bound outer => ?_⟩
  rw [← step bound]
  change (skipName bs).andThen (fun _ => skipFrom (bound + steps + 1) .value _) = _
  rw [name]
  rfl

theorem closing_ne_comma (inner : Bracket) : inner.closing ≠ Ascii.comma := by
  cases inner <;> decide

/-- The closing bracket is passed over. -/
theorem PassesOut.closing (comma : Bool) (h : skipSpace bs = inner.closing :: rest) :
    PassesOut inner comma bs rest := by
  have shorter := length_skipSpace_le bs
  rw [h, List.length_cons] at shorter
  refine ⟨1, by omega, fun bound outer => ?_⟩
  rw [skipFrom, h]
  dsimp only
  rw [if_neg (by simp [closing_ne_comma]), if_pos rfl]

/-- The first entry is passed over. -/
theorem PassesOut.first {b : UInt8} {left : Bytes} (h : skipSpace bs = b :: left)
    (other : b ≠ inner.closing) (entry : PassesEntry inner (b :: left) between)
    (others : PassesOut inner true between rest) : PassesOut inner false bs rest := by
  obtain ⟨steps, le, step⟩ := entry
  obtain ⟨steps', le', step'⟩ := others
  have shorter := length_skipSpace_le bs
  rw [h] at shorter
  refine ⟨steps + steps' + 1, by omega, fun bound outer => ?_⟩
  rw [← step', ← step, ← Nat.add_assoc, skipFrom, h]
  dsimp only
  rw [if_neg (by simp), if_neg other, if_neg Bool.false_ne_true, Nat.add_comm steps, Nat.add_assoc]

/-- Another entry is passed over. -/
theorem PassesOut.next {left : Bytes} (h : skipSpace bs = Ascii.comma :: left)
    (entry : PassesEntry inner left between) (others : PassesOut inner true between rest) :
    PassesOut inner true bs rest := by
  obtain ⟨steps, le, step⟩ := entry
  obtain ⟨steps', le', step'⟩ := others
  have shorter := length_skipSpace_le bs
  rw [h, List.length_cons] at shorter
  refine ⟨steps + steps' + 1, by omega, fun bound outer => ?_⟩
  rw [← step', ← step, ← Nat.add_assoc, skipFrom, h]
  dsimp only
  rw [if_pos (by simp), Nat.add_comm steps, Nat.add_assoc]

end Passes

/-- Where the next item of a list is found. -/
theorem nextItem_cases {first more : Bool} {bs rest : Bytes}
    (h : nextItem first bs = .ok (more, rest)) :
    (more = false ∧ ∃ left, skipSpace bs = rightBracket :: left ∧ rest = rightBracket :: left) ∨
      (more = true ∧ first = true ∧
        ∃ b left, skipSpace bs = b :: left ∧ b ≠ rightBracket ∧ rest = b :: left) ∨
      more = true ∧ first = false ∧
        ∃ left, skipSpace bs = Ascii.comma :: left ∧ rest = skipSpace left := by
  rw [nextItem] at h
  cases blank : skipSpace bs with
  | nil =>
      rw [blank] at h
      cases h
  | cons b left =>
      simp only [blank] at h
      split_ifs at h with closing opening comma
      · cases h
        exact .inl ⟨rfl, left, by rw [closing], by rw [closing]⟩
      · cases h
        exact .inr (.inl ⟨rfl, opening, b, left, rfl, closing, rfl⟩)
      · subst comma
        cases blank' : skipSpace left with
        | nil =>
            rw [blank'] at h
            cases h
        | cons c left' =>
            simp only [blank'] at h
            split at h
            · cases h
            · cases h
              exact .inr (.inr ⟨rfl, by simpa using opening, left, rfl, blank'.symm⟩)
      · cases h

/-- Where the next name of an object is found. -/
theorem nextName_cases {first : Bool} {name : Option String} {bs rest : Bytes}
    (h : nextName first bs = .ok (name, rest)) :
    (name = none ∧ ∃ left, skipSpace bs = rightBrace :: left ∧ rest = rightBrace :: left) ∨
      ∃ s, name = some s ∧
        ((first = true ∧ ∃ left, skipSpace bs = quote :: left ∧ text left = .ok (s, rest)) ∨
          first = false ∧ ∃ left left', skipSpace bs = Ascii.comma :: left ∧
            skipSpace left = quote :: left' ∧ text left' = .ok (s, rest)) := by
  have named : ∀ {left : Bytes},
      ((text left).andThen fun s rest => .ok (some s, rest)) = .ok (name, rest) →
        ∃ s, name = some s ∧ text left = .ok (s, rest) := by
    intro left h
    obtain ⟨s, _, read, same⟩ := Reading.andThen_eq_ok_iff.1 h
    cases same
    exact ⟨s, rfl, read⟩
  rw [nextName] at h
  cases blank : skipSpace bs with
  | nil =>
      rw [blank] at h
      cases h
  | cons b left =>
      simp only [blank] at h
      split_ifs at h with closing opening quoted comma
      · cases h
        exact .inl ⟨rfl, left, by rw [closing], by rw [closing]⟩
      · obtain ⟨s, rfl, read⟩ := named h
        exact .inr ⟨s, rfl, .inl ⟨opening, left, by rw [quoted], read⟩⟩
      · cases h
      · subst comma
        cases blank' : skipSpace left with
        | nil =>
            rw [blank'] at h
            cases h
        | cons c left' =>
            simp only [blank'] at h
            split_ifs at h with quoted
            · obtain ⟨s, rfl, read⟩ := named h
              exact .inr ⟨s, rfl, .inr ⟨by simpa using opening, left, left', rfl,
                by rw [blank', quoted], read⟩⟩
            · cases h
            · cases h
      · cases h

/-- What `item` reads is passed over, so a list of it is. -/
theorem itemsFrom_passes {item : Bytes → Reading α}
    (h : ∀ bs a rest, item bs = .ok (a, rest) → Passes bs rest) (bound : Nat) (first : Bool)
    {bs left : Bytes} {as : List α} (read : itemsFrom item bound first bs = .ok (as, left)) :
    ∃ rest, left = rightBracket :: rest ∧ PassesOut .square (!first) bs rest := by
  induction bound generalizing first bs as with
  | zero => cases read
  | succ bound ih =>
      obtain ⟨more, between, next, read⟩ := Reading.andThen_eq_ok_iff.1 read
      cases more with
      | false =>
          cases read
          rcases nextItem_cases next with ⟨-, rest, blank, rfl⟩ | ⟨⟨⟩, -⟩ | ⟨⟨⟩, -⟩
          exact ⟨rest, rfl, .closing _ blank⟩
      | true =>
          obtain ⟨a, behind, one, read⟩ := Reading.andThen_eq_ok_iff.1 read
          obtain ⟨as, _, others, same⟩ := Reading.andThen_eq_ok_iff.1 read
          cases same
          obtain ⟨rest, rfl, out⟩ := ih false others
          have passes := h between a behind one
          refine ⟨rest, rfl, ?_⟩
          rcases nextItem_cases next with ⟨⟨⟩, -⟩ | ⟨-, rfl, b, _, blank, other, rfl⟩ |
            ⟨-, rfl, _, blank, rfl⟩
          · exact .first blank other passes.entry out
          · exact .next blank passes.of_skipSpace.entry out

/-- What `read` reads is passed over, so an object of such members is. -/
theorem membersFrom_passes {joining : Joining} {read : Bytes → Reading Value}
    (h : ∀ bs a rest, read bs = .ok (a, rest) → Passes bs rest) (bound : Nat) (first : Bool)
    {ms ms' : Members} {bs left : Bytes}
    (done : membersFrom (valueMember joining read) bound first ms bs = .ok (ms', left)) :
    ∃ rest, left = rightBrace :: rest ∧ PassesOut .curly (!first) bs rest := by
  induction bound generalizing first ms bs with
  | zero => cases done
  | succ bound ih =>
      obtain ⟨name, between, next, done⟩ := Reading.andThen_eq_ok_iff.1 done
      rcases nextName_cases next with ⟨rfl, rest, blank, rfl⟩ | ⟨s, rfl, found⟩
      · cases done
        exact ⟨rest, rfl, .closing _ blank⟩
      · obtain ⟨ms, behind, one, done⟩ := Reading.andThen_eq_ok_iff.1 done
        obtain ⟨rest, rfl, out⟩ := ih false done
        obtain ⟨_, value, colon, one⟩ := Reading.andThen_eq_ok_iff.1 one
        obtain ⟨v, _, one, same⟩ := Reading.andThen_eq_ok_iff.1 one
        cases same
        have passes := h value v behind one
        -- The name and its colon, from the quote on.
        have name : ∀ {front left : Bytes}, skipSpace front = quote :: left →
            text left = .ok (s, between) → PassesEntry .curly front behind := by
          intro front left blank named
          have shorter := length_skipSpace_le front
          have shorter' := text_leaves left s between named
          have shorter'' := pastColon_leaves between () value colon
          rw [blank, List.length_cons] at shorter
          refine passes.entry_of_name ?_ (by omega)
          rw [skipName, blank]
          dsimp only
          rw [if_pos rfl, text_passed left s between named, Reading.andThen_ok, colon]
        refine ⟨rest, rfl, ?_⟩
        rcases found with ⟨rfl, left, blank, named⟩ | ⟨rfl, left, left', blank, blank', named⟩
        · exact .first blank (by decide) (name (skipSpace_cons (by decide) left) named) out
        · exact .next blank (name blank' named) out

/-- What is read with nested values that are passed over is passed over. -/
theorem valueWith_passes {joining : Joining} {nested : Option (Bytes → Reading Value)}
    (inside : ∀ read ∈ nested, ∀ bs v rest, read bs = .ok (v, rest) → Passes bs rest)
    {bs rest : Bytes} {v : Value} (h : valueWith joining nested bs = .ok (v, rest))
    (shorter : rest.length < bs.length) : Passes bs rest := by
  -- A value without brackets takes one step.
  have plain : (∀ bound outer, skipFrom (bound + 1) .value outer bs =
      skipFrom bound (.separator true) outer rest) → Passes bs rest :=
    fun step => ⟨0, by omega, step⟩
  rw [valueWith] at h
  cases blank : skipSpace bs with
  | nil =>
      rw [blank] at h
      cases h
  | cons b left =>
      have le := length_skipSpace_le bs
      rw [blank, List.length_cons] at le
      simp only [blank] at h
      split_ifs at h with null true' false' negative digit text' array object
      · obtain ⟨_, _, read, same⟩ := Reading.andThen_eq_ok_iff.1 h
        cases same
        refine plain fun bound outer => ?_
        simp only [skipFrom, blank, if_pos null, read, Reading.andThen_ok]
      · obtain ⟨_, _, read, same⟩ := Reading.andThen_eq_ok_iff.1 h
        cases same
        refine plain fun bound outer => ?_
        simp only [skipFrom, blank, if_neg null, if_pos true', read, Reading.andThen_ok]
      · obtain ⟨_, _, read, same⟩ := Reading.andThen_eq_ok_iff.1 h
        cases same
        refine plain fun bound outer => ?_
        simp only [skipFrom, blank, if_neg null, if_neg true', if_pos false', read,
          Reading.andThen_ok]
      · obtain ⟨n, _, read, same⟩ := Reading.andThen_eq_ok_iff.1 h
        cases same
        refine plain fun bound outer => ?_
        simp only [skipFrom, blank, if_neg null, if_neg true', if_neg false', if_pos negative,
          number_passed true left n rest read, Reading.andThen_ok]
      · obtain ⟨n, _, read, same⟩ := Reading.andThen_eq_ok_iff.1 h
        cases same
        refine plain fun bound outer => ?_
        simp only [skipFrom, blank, if_neg null, if_neg true', if_neg false', if_neg negative,
          if_pos digit, number_passed false _ n rest read, Reading.andThen_ok]
      · obtain ⟨s, _, read, same⟩ := Reading.andThen_eq_ok_iff.1 h
        cases same
        refine plain fun bound outer => ?_
        simp only [skipFrom, blank, if_neg null, if_neg true', if_neg false', if_neg negative,
          if_neg digit, if_pos text', text_passed left s rest read, Reading.andThen_ok]
      · cases nested with
        | none => cases h
        | some read =>
            obtain ⟨vs, _, read, same⟩ := Reading.andThen_eq_ok_iff.1 h
            cases same
            obtain ⟨between, all, closing⟩ := closed_eq_ok_iff.1 read
            obtain ⟨rest', rfl, steps, few, step⟩ :=
              itemsFrom_passes (inside _ rfl) _ true all
            rw [closeList, skipSpace_cons (by decide)] at closing
            cases closing
            refine ⟨steps, by omega, fun bound outer => ?_⟩
            rw [← step bound outer]
            simp only [skipFrom, blank, if_neg null, if_neg true', if_neg false', if_neg negative,
              if_neg digit, if_neg text', if_pos array]
            rfl
      · cases nested with
        | none => cases h
        | some read =>
            obtain ⟨ms, _, read, same⟩ := Reading.andThen_eq_ok_iff.1 h
            cases same
            obtain ⟨between, all, closing⟩ := closed_eq_ok_iff.1 read
            obtain ⟨rest', rfl, steps, few, step⟩ :=
              membersFrom_passes (inside _ rfl) _ true all
            rw [closeObject_rightBrace] at closing
            cases closing
            refine ⟨steps, by omega, fun bound outer => ?_⟩
            rw [← step bound outer]
            simp only [skipFrom, blank, if_neg null, if_neg true', if_neg false', if_neg negative,
              if_neg digit, if_neg text', if_neg array, if_pos object]
            rfl
      · cases h

/-- Wherever a value is read, it is passed over to the same place. -/
theorem valueAsWritten_passed (room : Nat) (bs : Bytes) :
    (valueAsWritten room bs).PassedBy (skip bs) := by
  have passes : ∀ room bs v rest, valueAsWritten room bs = .ok (v, rest) → Passes bs rest := by
    intro room
    induction room with
    | zero =>
        intro bs v rest h
        have shorter := valueAsWritten_leaves 0 bs v rest h
        rw [valueAsWritten_eq] at h
        exact valueWith_passes (by rintro _ ⟨⟩) h shorter
    | succ room ih =>
        intro bs v rest h
        have shorter := valueAsWritten_leaves (room + 1) bs v rest h
        rw [valueAsWritten_eq] at h
        refine valueWith_passes ?_ h shorter
        rintro _ ⟨⟩
        exact ih
  intro v rest h
  obtain ⟨steps, few, step⟩ := passes room bs v rest h
  obtain ⟨more, enough⟩ : ∃ more, 3 * bs.length + 3 = more + 1 + steps + 1 :=
    ⟨3 * bs.length + 1 - steps, by omega⟩
  rw [skip, enough, step]
  rfl

end FormSieve.Json
