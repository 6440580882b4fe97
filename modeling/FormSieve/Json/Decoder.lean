import FormSieve.Json.Skip

/-!
# Decoding documents of a known form

A decoder reads a document as a value of some type of this library and says what it found
instead when the document is of another form. It is told how many brackets may still be opened.

A record is an object whose fields are told apart by name: a field that is given twice or is
missing is a fault, and so is a field of the wrong form. Some records may also be written as
the list of their fields in order.
-/

namespace FormSieve.Json

open Ascii

/-- Reads a value of some type, given how many brackets may be opened. -/
abbrev Decoder (α : Type) := Nat → Bytes → Reading α

/-- A fault of a record as a whole. -/
def pendingAt (cause : Cause) (rest : Bytes) : Reading α := .error ⟨cause, rest, true⟩

/-- The number that was found, as messages show it. -/
def Found.ofNumber : Number → Found
  | .integer n _ => .integer n
  | .float x => .float x

/-- The fault of a document in which something else stands, which is read to say what. -/
def mismatch (expected : Expected) (bs : Bytes) : Reading α :=
  match bs with
  | [] => faultAt .valueExpected []
  | b :: rest =>
    if b = 0x6E then (word ull rest).andThen fun _ => faultAt (.wrongType .null expected)
    else if b = 0x74 then
      (word rue rest).andThen fun _ => faultAt (.wrongType (.boolean true) expected)
    else if b = 0x66 then
      (word alse rest).andThen fun _ => faultAt (.wrongType (.boolean false) expected)
    else if b = minus then
      (number true rest).andThen fun n => faultAt (.wrongType (.ofNumber n) expected)
    else if (digit? b).isSome then
      (number false (b :: rest)).andThen fun n => faultAt (.wrongType (.ofNumber n) expected)
    else if b = quote then
      (text rest).andThen fun s => faultAt (.wrongType (.text s) expected)
    else if b = leftBracket then faultAt (.wrongType .array expected) (b :: rest)
    else if b = leftBrace then faultAt (.wrongType .object expected) (b :: rest)
    else faultAt .valueExpected rest

namespace Decoder

/-- Any text. -/
def text : Decoder String := fun _ bs =>
  match skipSpace bs with
  | [] => faultAt .unfinishedValue []
  | b :: rest => if b = quote then Json.text rest else mismatch .text (b :: rest)

/-- `true` or `false`. -/
def boolean : Decoder Bool := fun _ bs =>
  match skipSpace bs with
  | [] => faultAt .unfinishedValue []
  | b :: rest =>
    if b = 0x74 then (word rue rest).andThen fun _ rest => .ok (true, rest)
    else if b = 0x66 then (word alse rest).andThen fun _ rest => .ok (false, rest)
    else mismatch .boolean (b :: rest)

/-- `null`. -/
def unit : Decoder Unit := fun _ bs =>
  match skipSpace bs with
  | [] => faultAt .unfinishedValue []
  | b :: rest =>
    if b = 0x6E then word ull rest else mismatch .unit (b :: rest)

/-- A whole number from zero up to but not including `limit`. -/
def natural (limit : Nat) (expected : Expected) : Decoder Nat := fun _ bs =>
  let accept (n : Number) (rest : Bytes) : Reading Nat :=
    match n with
    | .integer n _ =>
      if 0 ≤ n ∧ n < limit then .ok (n.toNat, rest) else faultAt (.wrongValue n expected) rest
    | .float x => faultAt (.wrongType (.float x) expected) rest
  match skipSpace bs with
  | [] => faultAt .unfinishedValue []
  | b :: rest =>
    if b = minus then (number true rest).andThen accept
    else if (digit? b).isSome then (number false (b :: rest)).andThen accept
    else mismatch expected (b :: rest)

def unsigned64 : Decoder UInt64 := fun room bs =>
  (natural (2 ^ 64) .unsigned64 room bs).andThen fun n rest => .ok (UInt64.ofNat n, rest)

def unsigned16 : Decoder UInt16 := fun room bs =>
  (natural (2 ^ 16) .unsigned16 room bs).andThen fun n rest => .ok (UInt16.ofNat n, rest)

/-- `null` or a value. -/
def optional (decoder : Decoder α) : Decoder (Option α) := fun room bs =>
  let some' : Reading (Option α) :=
    (decoder room bs).andThen fun a rest => .ok (some a, rest)
  match skipSpace bs with
  | b :: rest =>
    if b = 0x6E then (word ull rest).andThen fun _ rest => .ok (none, rest) else some'
  | [] => some'

/-- A list of values. -/
def list (decoder : Decoder α) : Decoder (List α) := fun room bs =>
  match skipSpace bs with
  | [] => faultAt .unfinishedValue []
  | b :: rest =>
    if b = leftBracket then
      match room with
      | 0 => faultAt .nestedTooDeeply rest
      | room + 1 => items (decoder room) rest
    else mismatch .sequence (b :: rest)

/-- The rest of a field that may be given once, from behind its name. `known` is what an
earlier occurrence gave. -/
def field (name : String) (known : Option α) (decoder : Decoder α) (put : α → δ) (room : Nat)
    (bs : Bytes) : Reading δ :=
  if known.isSome then pendingAt (.duplicateField name) bs
  else
    (pastColon bs).andThen fun _ rest =>
      (decoder room rest).andThen fun a rest => .ok (put a, rest)

/-- A field whose name is not known: its value is passed over. -/
def unknownField (draft : δ) (bs : Bytes) : Reading δ :=
  (pastColon bs).andThen fun _ rest => (skip rest).andThen fun _ rest => .ok (draft, rest)

/-- A field whose name is not known: its value is kept under its name. -/
def extraField (extra : Members) (name : String) (put : Members → δ) (room : Nat) (bs : Bytes) :
    Reading δ :=
  (valueMember .sorted (value room) extra name bs).andThen fun ms rest => .ok (put ms, rest)

/-- A field without which the record is refused. -/
def required (name : String) (known : Option α) : Except Cause α :=
  match known with
  | some a => .ok a
  | none => .error (.missingField name)

/-- How a record is read from its fields. `draft` holds what was given so far. -/
structure Fields (δ α : Type) where
  /-- The name of the record in messages. -/
  record : String
  /-- Nothing given yet. -/
  empty : δ
  /-- Reads the rest of a member from behind its name. -/
  member : Nat → δ → String → Bytes → Reading δ
  /-- Completes the record. -/
  finish : δ → Except Cause α
  /-- Reads the fields from a list, from behind its opening bracket, if that is allowed. -/
  inOrder : Option (Decoder α) := none

/-- A record. -/
def record (fields : Fields δ α) : Decoder α := fun room bs =>
  match skipSpace bs with
  | [] => faultAt .unfinishedValue []
  | b :: rest =>
    if b = leftBrace then
      match room with
      | 0 => faultAt .nestedTooDeeply rest
      | room + 1 =>
        closed closeObject <|
          (members (fields.member room) fields.empty rest).andThen fun draft rest =>
            match fields.finish draft with
            | .ok a => .ok (a, rest)
            | .error cause => pendingAt cause rest
    else if b = leftBracket then
      match fields.inOrder with
      | none => mismatch (.record fields.record) (b :: rest)
      | some read =>
        match room with
        | 0 => faultAt .nestedTooDeeply rest
        | room + 1 => closed closeList (read room rest)
    else mismatch (.record fields.record) (b :: rest)

/-- The field at some index of a record written as a list: `missing` if the list ends before
it. -/
def item (index : Nat) (missing : Except Cause α) (decoder : Decoder α) (room : Nat)
    (bs : Bytes) : Reading α :=
  (nextItem (index = 0) bs).andThen fun more rest =>
    if more then decoder room rest
    else
      match missing with
      | .ok a => .ok (a, rest)
      | .error cause => pendingAt cause rest

end Decoder

/-- How many brackets may be open in a document. -/
def maxDepth : Nat := 127

/-- Decodes a whole document. -/
def decode (decoder : Decoder α) (document : Bytes) : Except Refusal α :=
  match decoder maxDepth document with
  | .error fault => .error (fault.refuse document)
  | .ok (a, rest) =>
    match skipSpace rest with
    | [] => .ok a
    | _ :: rest => .error (Fault.refuse document ⟨.trailingCharacters, rest, false⟩)

/-- Any JSON value. -/
def Decoder.value : Decoder Value := Json.value

end FormSieve.Json
