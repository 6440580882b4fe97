import FormSieve.Text.Bytes

/-!
# Request targets

What a request asks for: a path and possibly a query. A target may be given as a path, as an
asterisk, as a host alone, or as a whole address with scheme and host; a fragment is cut off.
Bytes outside ASCII are let through as long as they are text.
-/

namespace FormSieve.Http

open Ascii

structure Target where
  path : Bytes
  query : Option Bytes
deriving DecidableEq, Repr

namespace Target

/-- No target is longer. -/
def maxLength : Nat := 65534

/-- The number sign. -/
abbrev numberSign : UInt8 := 0x23

abbrev questionMark : UInt8 := 0x3F

abbrev atSign : UInt8 := 0x40

/-- A byte that a path may have. -/
def isPathByte (b : UInt8) : Bool :=
  b ≥ 0x7F || b = 0x21 || b = 0x22 || 0x24 ≤ b && b ≤ 0x3B || b = 0x3D || 0x40 ≤ b && b ≤ 0x5F ||
    0x61 ≤ b && b ≤ 0x7E

/-- A byte that a query may have. -/
def isQueryByte (b : UInt8) : Bool :=
  b = 0x21 || 0x24 ≤ b && b ≤ 0x3B || b = 0x3D || 0x3F ≤ b

/-- A path with its query; the path is a single slash if it is left out. -/
def ofPath? (bs : Bytes) : Option Target :=
  let kept := bs.takeWhile (· ≠ numberSign)
  let path := kept.takeWhile (· ≠ questionMark)
  let query :=
    match kept.dropWhile (· ≠ questionMark) with
    | [] => none
    | _ :: query => some query
  if path.all isPathByte && (query.getD []).all isQueryByte && (Text.ofBytes? kept).isSome then
    some ⟨if path.isEmpty then [slash] else path, query⟩
  else none

/-! ## Addresses -/

/-- The bytes that an authority may have beside letters and digits; a percent sign only in
credentials and in brackets. -/
def authorityMarks : List Char :=
  ['!', '$', '%', '&', '\x27', '(', ')', '*', '+', ',', '-', '.', ':', ';', '=', '@', '[', ']',
    '_', '~']

def isAuthorityByte (b : UInt8) : Bool :=
  isAlphanumeric b || authorityMarks.contains (Char.ofNat b.toNat)

/-- What has been seen of an authority. -/
structure AuthorityState where
  colons : Nat := 0
  opened : Bool := false
  closed : Bool := false
  escapes : Bool := false

/-- Takes one more byte of an authority. What stands before an at sign or in brackets is judged
less strictly. -/
def AuthorityState.step (s : AuthorityState) (b : UInt8) : Option AuthorityState :=
  if b = colon then if s.colons < 8 then some { s with colons := s.colons + 1 } else none
  else if b = leftBracket then
    if s.escapes || s.opened then none else some { s with opened := true }
  else if b = rightBracket then
    if !s.opened || s.closed then none
    else some { s with closed := true, colons := 0, escapes := false }
  else if b = atSign then some { s with colons := 0, escapes := false }
  else if b = percent then some { s with escapes := true }
  else if isAuthorityByte b then some s
  else none

def isAuthority (bs : Bytes) : Bool :=
  match bs.foldlM AuthorityState.step {} with
  | none => false
  | some s =>
    s.opened = s.closed && s.colons ≤ 1 && bs.getLast? ≠ some atSign && !s.escapes

/-- Whether an authority ends before this byte. -/
def endsAuthority (b : UInt8) : Bool := b = slash || b = questionMark || b = numberSign

/-- A byte of a scheme. -/
def isSchemeByte (b : UInt8) : Bool :=
  isAlphanumeric b || b = plus || b = minus || b = point || b = 0x7E

/-- What stands in front of `://` and what follows it. -/
def cutScheme? (bs : Bytes) : Option (Bytes × Bytes) :=
  match bs.dropWhile isSchemeByte with
  | a :: b :: c :: rest =>
    if a = colon ∧ b = slash ∧ c = slash then some (bs.takeWhile isSchemeByte, rest) else none
  | _ => none

/-- The longest scheme. -/
def maxSchemeLength : Nat := 64

/-- A whole address, or a host alone, which has no path. -/
def ofAddress? (bs : Bytes) : Option Target :=
  match cutScheme? bs with
  | none => if isAuthority bs then some ⟨[], none⟩ else none
  | some (scheme, rest) =>
    let authority := rest.takeWhile (!endsAuthority ·)
    if scheme.length ≤ maxSchemeLength && isAuthority authority && !authority.isEmpty then
      ofPath? (rest.dropWhile (!endsAuthority ·))
    else none

def parse? (s : String) : Option Target :=
  let bs := Text.bytes s
  if bs.length > maxLength then none
  else
    match bs with
    | [] => none
    | [b] =>
      if b = slash ∨ b = 0x2A then some ⟨[b], none⟩
      else if isAuthority [b] then some ⟨[], none⟩
      else none
    | b :: rest => if b = slash then ofPath? (b :: rest) else ofAddress? (b :: rest)

end Target

end FormSieve.Http
