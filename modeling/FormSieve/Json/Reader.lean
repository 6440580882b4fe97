import FormSieve.Json.Fault

/-!
# Reading JSON

Readers take the bytes that are still to read and yield what they read with the bytes that
follow it. A fault is placed right behind the byte that shows it.

Reading numbers is deliberately not exact: a number that is not a small whole number is its
first digits, up to 64 bits of them, as a double, multiplied or divided once by a power of ten
that is itself a double.
-/

namespace FormSieve.Json

open Ascii

/-- What a reader yields. -/
abbrev Reading (α : Type) := Except Fault (α × Bytes)

/-- A fault at the place where `rest` is still to read. -/
def faultAt (cause : Cause) (rest : Bytes) : Reading α := .error ⟨cause, rest, false⟩

/-- A fault of the next byte: the place is behind it, or at the end if there is none. -/
def faultOn (cause : Cause) (upcoming : Bytes) : Reading α := faultAt cause upcoming.tail

/-- Goes on with what was read and what follows it. -/
def Reading.andThen (r : Reading α) (next : α → Bytes → Reading β) : Reading β :=
  match r with
  | .ok (a, rest) => next a rest
  | .error f => .error f

@[simp] theorem Reading.andThen_ok (a : α) (rest : Bytes) (next : α → Bytes → Reading β) :
    Reading.andThen (.ok (a, rest)) next = next a rest := rfl

@[simp] theorem Reading.andThen_error (f : Fault) (next : α → Bytes → Reading β) :
    Reading.andThen (.error f) next = .error f := rfl

/-- The blanks that may stand between the parts of a document. -/
def isSpace (b : UInt8) : Bool := b = space || b = newline || b = tab || b = carriageReturn

def skipSpace (bs : Bytes) : Bytes := bs.dropWhile isSpace

/-- Reads the remaining letters of a word. -/
def word : Bytes → Bytes → Reading Unit
  | [], rest => .ok ((), rest)
  | _ :: _, [] => faultAt .unfinishedValue []
  | w :: ws, b :: rest => if b = w then word ws rest else faultAt .wordExpected rest

/-- The rest of `null`. -/
def ull : Bytes := [0x75, 0x6C, 0x6C]

/-- The rest of `true`. -/
def rue : Bytes := [0x72, 0x75, 0x65]

/-- The rest of `false`. -/
def alse : Bytes := [0x61, 0x6C, 0x73, 0x65]

/-! ## Texts -/

/-- What the next byte of a text means. -/
inductive TextState where
  /-- Outside an escape. -/
  | plain
  /-- Behind a backslash. -/
  | escape
  /-- Within the four digits of an escape: how many are left, and the digits so far, `none`
  after one that is no digit. `lead` is a leading surrogate that awaits its partner. -/
  | unit (lead : Option Nat) (left : Nat) (value : Option Nat)
  /-- Behind a leading surrogate, before the backslash of its partner. -/
  | partner (lead : Nat)
  /-- Behind that backslash. -/
  | partnerLetter (lead : Nat)

/-- The byte that a one-letter escape stands for. -/
def escapedByte? (b : UInt8) : Option UInt8 :=
  if b = quote ∨ b = backslash ∨ b = slash then some b
  else if b = 0x62 then some 0x08
  else if b = 0x66 then some 0x0C
  else if b = 0x6E then some newline
  else if b = 0x72 then some carriageReturn
  else if b = 0x74 then some tab
  else none

/-- The letter of a numeric escape. -/
abbrev escapeLetter : UInt8 := 0x75

/-- One more digit of a numeric escape. -/
def addHexDigit (value : Option Nat) (b : UInt8) : Option Nat :=
  match value, hexDigit? b with
  | some v, some d => some (16 * v + d)
  | _, _ => none

/-- What a complete numeric escape calls for. -/
inductive UnitEnd where
  | char (c : Char)
  | lead (u : Nat)
  | wrong (cause : Cause)

/-- A unit below 0xD800 or from 0xE000 on is a character; a leading surrogate and a trailing
one make up a character together. -/
def UnitEnd.of (lead : Option Nat) : Option Nat → UnitEnd
  | none => .wrong .badEscape
  | some u =>
    match lead with
    | none =>
      if 0xDC00 ≤ u ∧ u ≤ 0xDFFF then .wrong .loneSurrogate
      else if 0xD800 ≤ u ∧ u ≤ 0xDBFF then .lead u
      else .char (Char.ofNat u)
    | some l =>
      if 0xDC00 ≤ u ∧ u ≤ 0xDFFF then
        .char (Char.ofNat (0x10000 + (l - 0xD800) * 0x400 + (u - 0xDC00)))
      else .wrong .loneSurrogate

/-- Puts bytes in front of what is read. -/
def withBytes (bs : Bytes) (r : Reading Bytes) : Reading Bytes :=
  r.andThen fun more rest => .ok (bs ++ more, rest)

/-- The bytes of a text up to its closing quote. -/
def textBytes : TextState → Bytes → Reading Bytes
  | _, [] => faultAt .unfinishedText []
  | .plain, b :: rest =>
    if b = quote then .ok ([], rest)
    else if b = backslash then textBytes .escape rest
    else if b < space then faultAt .controlCharacter rest
    else withBytes [b] (textBytes .plain rest)
  | .escape, b :: rest =>
    if b = escapeLetter then textBytes (.unit none 4 (some 0)) rest
    else
      match escapedByte? b with
      | some c => withBytes [c] (textBytes .plain rest)
      | none => faultAt .badEscape rest
  | .unit lead left value, b :: rest =>
    let value := addHexDigit value b
    -- Escapes are judged by their four digits together, and only when all are there.
    if left > 1 then textBytes (.unit lead (left - 1) value) rest
    else
      match UnitEnd.of lead value with
      | .char c => withBytes (String.utf8EncodeChar c) (textBytes .plain rest)
      | .lead u => textBytes (.partner u) rest
      | .wrong cause => faultAt cause rest
  | .partner lead, b :: rest =>
    if b = backslash then textBytes (.partnerLetter lead) rest
    else faultAt .unfinishedSurrogate rest
  | .partnerLetter lead, b :: rest =>
    if b = escapeLetter then textBytes (.unit (some lead) 4 (some 0)) rest
    else faultAt .unfinishedSurrogate rest

/-- A text, from behind its opening quote. -/
def text (bs : Bytes) : Reading String :=
  (textBytes .plain bs).andThen fun content rest =>
    match Text.ofBytes? content with
    | some s => .ok (s, rest)
    | none => faultAt .badText rest

/-! ## Numbers -/

/-- A bound on the digits that are kept. -/
def significandLimit : Nat := 2 ^ 64

/-- Appends digits to `significand` as long as it stays below the limit. Yields the number,
how many digits were taken, and what follows. -/
def takeDigits (significand : Nat) : Bytes → Nat × Nat × Bytes
  | [] => (significand, 0, [])
  | b :: rest =>
    match digit? b with
    | none => (significand, 0, b :: rest)
    | some d =>
      if 10 * significand + d < significandLimit then
        let (s, count, rest) := takeDigits (10 * significand + d) rest
        (s, count + 1, rest)
      else (significand, 0, b :: rest)

/-- Passes over digits, counting them. -/
def countDigits : Bytes → Nat × Bytes
  | [] => (0, [])
  | b :: rest =>
    if (digit? b).isSome then
      let (count, rest) := countDigits rest
      (count + 1, rest)
    else (0, b :: rest)

/-- The largest power of ten among the doubles. -/
def largestPower : Nat := 308

/-- The rank of `significand * 10 ^ exponent`, scaled in as few steps as the powers of ten
among the doubles allow. Two divisions by the largest power bring any significand to zero. -/
def scaledRank (significand : Nat) (exponent : Int) : Nat :=
  let start := Binary64.rankOfNat significand
  let n := exponent.natAbs
  if 0 ≤ exponent then
    if n ≤ largestPower then Binary64.mulRank start (Binary64.rankOfNat (10 ^ n))
    else if start = 0 then 0
    else Binary64.infinityRank
  else
    let largest := Binary64.rankOfNat (10 ^ largestPower)
    if n ≤ largestPower then Binary64.divRank start (Binary64.rankOfNat (10 ^ n))
    else if n ≤ 2 * largestPower then
      Binary64.divRank (Binary64.divRank start largest)
        (Binary64.rankOfNat (10 ^ (n - largestPower)))
    else 0

/-- The double made of a sign, digits and an exponent, if it is finite. -/
def floatOfParts (negative : Bool) (significand : Nat) (exponent : Int) (rest : Bytes) :
    Reading Number :=
  match Binary64.ofRank? negative (scaledRank significand exponent) with
  | some x => .ok (.float x, rest)
  | none => faultAt .numberTooLarge rest

/-- The zero of a sign. -/
def signedZero (negative : Bool) : Number := .float ⟨negative, 0, by decide⟩

/-- Exponents from here on are not accumulated. -/
def exponentLimit : Nat := 2 ^ 31

/-- How far the digits of an exponent go before they reach the limit. `none` marks the digit
that reaches it; what follows is behind that digit. -/
def exponentDigits (value : Nat) : Bytes → Option Nat × Bytes
  | [] => (some value, [])
  | b :: rest =>
    match digit? b with
    | none => (some value, b :: rest)
    | some d =>
      if 10 * value + d < exponentLimit then exponentDigits (10 * value + d) rest
      else (none, rest)

/-- Reads an exponent, from behind its letter. -/
def exponentPart (negative : Bool) (significand : Nat) (exponent : Int) (bs : Bytes) :
    Reading Number :=
  let (down, bs) :=
    match bs with
    | b :: rest =>
      if b = plus then (false, rest) else if b = minus then (true, rest) else (false, b :: rest)
    | [] => (false, [])
  match bs with
  | [] => faultAt .unfinishedValue []
  | b :: rest =>
    match digit? b with
    | none => faultAt .badNumber rest
    | some d =>
      match exponentDigits d rest with
      | (some e, rest) =>
        floatOfParts negative significand (if down then exponent - e else exponent + e) rest
      | (none, rest) =>
        if significand ≠ 0 ∧ ¬down then faultAt .numberTooLarge rest
        else .ok (signedZero negative, (countDigits rest).2)

/-- Whether an exponent begins here; yields what follows its letter. -/
def exponentMark? : Bytes → Option Bytes
  | b :: rest => if b = 0x65 ∨ b = 0x45 then some rest else none
  | [] => none

/-- Reads a fraction, from behind its point. Digits that no longer fit are dropped. -/
def fractionPart (negative : Bool) (significand : Nat) (exponent : Int) (bs : Bytes) :
    Reading Number :=
  let (significand, count, upcoming) := takeDigits significand bs
  let (dropped, rest) := countDigits upcoming
  if count = 0 ∧ dropped = 0 then
    match rest with
    | [] => faultAt .unfinishedValue []
    | _ :: _ => faultOn .badNumber rest
  else
    match exponentMark? rest with
    | some rest => exponentPart negative significand (exponent - count) rest
    | none => floatOfParts negative significand (exponent - count) rest

/-- The whole number of a sign and digits. Zero with a minus sign, and what does not fit into
64 bits with the sign, are doubles. -/
def wholeNumber (negative : Bool) (significand : Nat) (rest : Bytes) : Reading Number :=
  if negative then
    if h : 0 < significand ∧ significand ≤ 2 ^ 63 then
      .ok (.integer (-significand) (by omega), rest)
    else floatOfParts true significand 0 rest
  else
    if h : significand < significandLimit then
      .ok (.integer significand (by simp only [significandLimit] at h; omega), rest)
    else floatOfParts false significand 0 rest

/-- What may follow the digits before the point; `exponent` counts those not kept. -/
def numberTail (negative : Bool) (significand exponent : Nat) (bs : Bytes) : Reading Number :=
  match bs with
  | b :: rest =>
    if b = point then fractionPart negative significand exponent rest
    else
      match exponentMark? (b :: rest) with
      | some rest => exponentPart negative significand exponent rest
      | none =>
        if exponent = 0 then wholeNumber negative significand (b :: rest)
        else floatOfParts negative significand exponent (b :: rest)
  | [] =>
    if exponent = 0 then wholeNumber negative significand []
    else floatOfParts negative significand exponent []

/-- A number, from behind its sign. -/
def number (negative : Bool) : Bytes → Reading Number
  | [] => faultAt .unfinishedValue []
  | b :: rest =>
    match digit? b with
    | none => faultAt .badNumber rest
    | some 0 =>
      -- A number has at most one leading zero.
      match rest with
      | c :: _ =>
        if (digit? c).isSome then faultOn .badNumber rest else numberTail negative 0 0 rest
      | [] => numberTail negative 0 0 []
    | some d =>
      let (significand, _, upcoming) := takeDigits d rest
      let (dropped, rest) := countDigits upcoming
      numberTail negative significand dropped rest

/-! ## Lists and objects -/

/-- Goes to the next item of a list: whether there is one, and what then follows. -/
def nextItem (first : Bool) (bs : Bytes) : Reading Bool :=
  match skipSpace bs with
  | [] => faultAt .unfinishedList []
  | b :: rest =>
    if b = rightBracket then .ok (false, b :: rest)
    else if first then .ok (true, b :: rest)
    else if b = comma then
      match skipSpace rest with
      | [] => faultAt .unfinishedValue []
      | c :: rest => if c = rightBracket then faultAt .trailingComma rest else .ok (true, c :: rest)
    else faultAt .commaOrBracketExpected rest

/-- Goes to the next member of an object and reads its name, if there is one. -/
def nextName (first : Bool) (bs : Bytes) : Reading (Option String) :=
  let name (bs : Bytes) : Reading (Option String) :=
    (text bs).andThen fun s rest => .ok (some s, rest)
  match skipSpace bs with
  | [] => faultAt .unfinishedObject []
  | b :: rest =>
    if b = rightBrace then .ok (none, b :: rest)
    else if first then
      if b = quote then name rest else faultAt .nameExpected rest
    else if b = comma then
      match skipSpace rest with
      | [] => faultAt .unfinishedValue []
      | c :: rest =>
        if c = quote then name rest
        else if c = rightBrace then faultAt .trailingComma rest
        else faultAt .nameExpected rest
    else faultAt .commaOrBraceExpected rest

/-- Passes over the colon between a name and its value. -/
def pastColon (bs : Bytes) : Reading Unit :=
  match skipSpace bs with
  | [] => faultAt .unfinishedObject []
  | b :: rest => if b = colon then .ok ((), rest) else faultAt .colonExpected rest

/-- The outcome of looking for a closing bracket: what is then still to read, and the fault if
something else stands there. -/
structure Closing where
  rest : Bytes
  fault : Option Fault

/-- Looks for the end of an object. -/
def closeObject (bs : Bytes) : Closing :=
  match skipSpace bs with
  | [] => ⟨[], some ⟨.unfinishedObject, [], false⟩⟩
  | b :: rest =>
    if b = rightBrace then ⟨rest, none⟩
    else if b = comma then ⟨b :: rest, some ⟨.trailingComma, rest, false⟩⟩
    else ⟨b :: rest, some ⟨.trailingCharacters, rest, false⟩⟩

/-- Looks for the end of a list. -/
def closeList (bs : Bytes) : Closing :=
  match skipSpace bs with
  | [] => ⟨[], some ⟨.unfinishedList, [], false⟩⟩
  | b :: rest =>
    if b = rightBracket then ⟨rest, none⟩
    else if b = comma then
      let ahead := skipSpace rest
      let cause :=
        if ahead.head? = some rightBracket then Cause.trailingComma else .trailingCharacters
      ⟨ahead, some ⟨cause, ahead.tail, false⟩⟩
    else ⟨b :: rest, some ⟨.trailingCharacters, rest, false⟩⟩

/-- Closes what was read. A pending fault is placed where the closing has come to. -/
def closed (close : Bytes → Closing) : Reading α → Reading α
  | .ok (a, rest) =>
    match close rest with
    | ⟨rest, none⟩ => .ok (a, rest)
    | ⟨_, some f⟩ => .error f
  | .error f =>
    if f.pending then .error ⟨f.cause, (close f.rest).rest, false⟩ else .error f

/-- The items of a list up to its closing bracket, which is left. Every item takes at least
one byte, so the number of bytes bounds the number of items. -/
def itemsFrom (item : Bytes → Reading α) : Nat → Bool → Bytes → Reading (List α)
  | 0, _, bs => faultAt .unfinishedList bs
  | bound + 1, first, bs =>
    (nextItem first bs).andThen fun more rest =>
      if more then
        (item rest).andThen fun a rest =>
          (itemsFrom item bound false rest).andThen fun as rest => .ok (a :: as, rest)
      else .ok ([], rest)

/-- A list, from behind its opening bracket. -/
def items (item : Bytes → Reading α) (bs : Bytes) : Reading (List α) :=
  closed closeList (itemsFrom item (bs.length + 1) true bs)

/-- Folds the members of an object up to its closing brace, which is left. `member` reads the
rest of a member from behind its name. -/
def membersFrom (member : σ → String → Bytes → Reading σ) : Nat → Bool → σ → Bytes → Reading σ
  | 0, _, _, bs => faultAt .unfinishedObject bs
  | bound + 1, first, state, bs =>
    (nextName first bs).andThen fun name rest =>
      match name with
      | none => .ok (state, rest)
      | some name =>
        (member state name rest).andThen fun state rest =>
          membersFrom member bound false state rest

/-- Folds the members of an object, from behind its opening brace. -/
def members (member : σ → String → Bytes → Reading σ) (start : σ) (bs : Bytes) : Reading σ :=
  membersFrom member (bs.length + 1) true start bs

/-! ## Values -/

/-- How an object takes in one more member. -/
abbrev Joining := Members → String → Value → Members

/-- Members in the order of names, where one that is given again takes the place of the earlier
one. -/
def Joining.sorted : Joining := fun ms name v => ms.insert name v

/-- All members in their order. -/
def Joining.written : Joining := fun ms name v => ms ++ [(name, v)]

/-- Reads one more member of an object, from behind its name. -/
def valueMember (joining : Joining) (read : Bytes → Reading Value) (ms : Members) (name : String)
    (bs : Bytes) : Reading Members :=
  (pastColon bs).andThen fun _ rest =>
    (read rest).andThen fun v rest => .ok (joining ms name v, rest)

/-- Reads a value whose nested values are read by `nested`, or that must not have any. -/
def valueWith (joining : Joining) (nested : Option (Bytes → Reading Value)) (bs : Bytes) :
    Reading Value :=
  match skipSpace bs with
  | [] => faultAt .unfinishedValue []
  | b :: rest =>
    if b = 0x6E then (word ull rest).andThen fun _ rest => .ok (.null, rest)
    else if b = 0x74 then (word rue rest).andThen fun _ rest => .ok (.boolean true, rest)
    else if b = 0x66 then (word alse rest).andThen fun _ rest => .ok (.boolean false, rest)
    else if b = minus then (number true rest).andThen fun n rest => .ok (.number n, rest)
    else if (digit? b).isSome then
      (number false (b :: rest)).andThen fun n rest => .ok (.number n, rest)
    else if b = quote then (text rest).andThen fun s rest => .ok (.text s, rest)
    else if b = leftBracket then
      match nested with
      | none => faultAt .nestedTooDeeply rest
      | some read => (items read rest).andThen fun vs rest => .ok (.array vs, rest)
    else if b = leftBrace then
      match nested with
      | none => faultAt .nestedTooDeeply rest
      | some read =>
        (closed closeObject (members (valueMember joining read) [] rest)).andThen fun ms rest =>
          .ok (.object ms, rest)
    else faultAt .valueExpected rest

/-- Reads a value in which at most `room` brackets may be open at once. -/
def valueJoining (joining : Joining) : Nat → Bytes → Reading Value
  | 0 => valueWith joining none
  | room + 1 => valueWith joining (some (valueJoining joining room))

/-- Reads a value with the members of each object in the order of names. -/
def value : Nat → Bytes → Reading Value := valueJoining .sorted

/-- Reads a value as it is written. -/
def valueAsWritten : Nat → Bytes → Reading Value := valueJoining .written

end FormSieve.Json
