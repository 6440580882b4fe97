import FormSieve.Json.Reader

/-!
# Passing over values

A member that a record does not know is passed over without being read. Only its form is
checked, and less strictly than in reading: brackets may be nested to any depth, numbers may
have any size, and numeric escapes need not pair up.
-/

namespace FormSieve.Json

open Ascii

/-- What the next byte of a skipped text means. -/
inductive SkipState where
  | plain
  | escape
  /-- Within the digits of a numeric escape: how many are left, and whether all so far are
  digits. -/
  | unit (left : Nat) (good : Bool)

/-- Passes over a text, from behind its opening quote. -/
def skipText : SkipState → Bytes → Reading Unit
  | _, [] => faultAt .unfinishedText []
  | .plain, b :: rest =>
    if b = quote then .ok ((), rest)
    else if b = backslash then skipText .escape rest
    else if b < space then faultAt .controlCharacter (b :: rest)
    else skipText .plain rest
  | .escape, b :: rest =>
    if b = escapeLetter then skipText (.unit 4 true) rest
    else if (escapedByte? b).isSome then skipText .plain rest
    else faultAt .badEscape rest
  | .unit left good, b :: rest =>
    let good := good && (hexDigit? b).isSome
    if left > 1 then skipText (.unit (left - 1) good) rest
    else if good then skipText .plain rest
    else faultAt .badEscape rest

/-- Passes over an exponent, from behind its letter. -/
def skipExponent (bs : Bytes) : Reading Unit :=
  let bs :=
    match bs with
    | b :: rest => if b = plus ∨ b = minus then rest else b :: rest
    | [] => []
  match bs with
  | [] => faultAt .badNumber []
  | b :: rest =>
    if (digit? b).isSome then .ok ((), (countDigits rest).2) else faultAt .badNumber rest

/-- Passes over a number, from behind its sign. -/
def skipNumber (bs : Bytes) : Reading Unit :=
  match bs with
  | [] => faultAt .badNumber []
  | b :: rest =>
    match digit? b with
    | none => faultAt .badNumber rest
    | some d =>
      let whole := if d = 0 then rest else (countDigits rest).2
      match whole with
      | [] => .ok ((), [])
      | c :: tail =>
        if (digit? c).isSome then faultAt .badNumber tail
        else if c = point then
          let (count, tail) := countDigits tail
          if count = 0 then faultOn .badNumber tail
          else
            match exponentMark? tail with
            | some tail => skipExponent tail
            | none => .ok ((), tail)
        else
          match exponentMark? (c :: tail) with
          | some tail => skipExponent tail
          | none => .ok ((), c :: tail)

/-- A bracket that is open. -/
inductive Bracket where
  | square
  | curly
deriving DecidableEq, Repr

namespace Bracket

def closing : Bracket → UInt8
  | square => rightBracket
  | curly => rightBrace

/-- The cause when the document ends inside the bracket. -/
def unfinished : Bracket → Cause
  | square => .unfinishedList
  | curly => .unfinishedObject

/-- The cause when something follows an entry that is neither a comma nor the closing. -/
def commaExpected : Bracket → Cause
  | square => .commaOrBracketExpected
  | curly => .commaOrBraceExpected

end Bracket

/-- What comes next when values are passed over. -/
inductive SkipStep where
  /-- A value. -/
  | value
  /-- An entry of the innermost bracket: a value, with its name if the bracket is curly. -/
  | entry
  /-- A comma or the closing of the innermost bracket. The comma is not allowed directly behind
  the opening, where the first entry may stand instead. -/
  | separator (comma : Bool)

/-- Passes over a name and its colon. -/
def skipName (bs : Bytes) : Reading Unit :=
  match skipSpace bs with
  | [] => faultAt .unfinishedObject []
  | b :: rest =>
    if b = quote then (skipText .plain rest).andThen fun _ rest => pastColon rest
    else faultAt .nameExpected rest

/-- Passes over what is open, innermost bracket first. Every second step at least takes a
byte. -/
def skipFrom : Nat → SkipStep → List Bracket → Bytes → Reading Unit
  | 0, _, _, bs => faultAt .unfinishedValue bs
  | bound + 1, .value, outer, bs =>
    let further := skipFrom bound (.separator true) outer
    match skipSpace bs with
    | [] => faultAt .unfinishedValue []
    | b :: rest =>
      if b = 0x6E then (word ull rest).andThen fun _ => further
      else if b = 0x74 then (word rue rest).andThen fun _ => further
      else if b = 0x66 then (word alse rest).andThen fun _ => further
      else if b = minus then (skipNumber rest).andThen fun _ => further
      else if (digit? b).isSome then (skipNumber (b :: rest)).andThen fun _ => further
      else if b = quote then (skipText .plain rest).andThen fun _ => further
      else if b = leftBracket then skipFrom bound (.separator false) (.square :: outer) rest
      else if b = leftBrace then skipFrom bound (.separator false) (.curly :: outer) rest
      else faultAt .valueExpected rest
  | bound + 1, .entry, outer, bs =>
    match outer with
    | .curly :: _ => (skipName bs).andThen fun _ => skipFrom bound .value outer
    | _ => skipFrom bound .value outer bs
  | _ + 1, .separator _, [], bs => .ok ((), bs)
  | bound + 1, .separator comma, inner :: outer, bs =>
    match skipSpace bs with
    | [] => faultAt inner.unfinished []
    | b :: rest =>
      if b = Ascii.comma && comma then skipFrom bound .entry (inner :: outer) rest
      else if b = inner.closing then skipFrom bound (.separator true) outer rest
      else if comma then faultAt inner.commaExpected rest
      else skipFrom bound .entry (inner :: outer) (b :: rest)

/-- Passes over one value. -/
def skip (bs : Bytes) : Reading Unit := skipFrom (3 * bs.length + 3) .value [] bs

end FormSieve.Json
