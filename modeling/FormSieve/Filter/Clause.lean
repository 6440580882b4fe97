import FormSieve.Filter.Comparator

/-!
# Clauses

A clause asks the answers to one question to compare in some way with a value. A filter is a
list of clauses, all of which must hold.
-/

namespace FormSieve

open Json

/-- The value that a clause compares with. -/
inductive Target where
  | number (n : Number)
  | text (s : String)
deriving DecidableEq, Repr

namespace Target

def ofValue? : Value → Option Target
  | .number n => some (.number n)
  | .text s => some (.text s)
  | _ => none

def toValue : Target → Value
  | number n => .number n
  | text s => .text s

@[simp] theorem ofValue?_toValue (t : Target) : ofValue? t.toValue = some t := by
  cases t <;> rfl

/-- How a value stands to the target: texts are ordered by their bytes and numbers by the
doubles nearest to them. There is no order between different kinds of values. -/
def order (value : Value) (target : Target) : Option Ordering :=
  match value, target with
  | .text v, text t => some (Text.order v t)
  | .number v, number t => some (compare v.signedRank t.signedRank)
  | _, _ => none

/-- A target that counts as not given: empty text and zero. -/
def isFalsy : Target → Bool
  | text t => t.isEmpty
  | number n => n.signedRank = 0

/-- Of which kind a target is shows only when it has been read, so it is read as it is written
first. -/
def decoder : Decoder Target := fun room bs =>
  (valueAsWritten room bs).andThen fun v rest =>
    match ofValue? v with
    | some target => .ok (target, rest)
    | none => pendingAt (.noVariant "FilterValue") rest

def print (t : Target) : String := t.toValue.print

end Target

/-- What is asked of the answers to one question. -/
structure Clause where
  /-- The question. -/
  id : String
  comparator : Comparator
  target : Target
deriving DecidableEq, Repr

/-- Clauses that must all hold. -/
abbrev FilterSet := List Clause

namespace Clause

/-- Whether the clause accepts an answer with this value. -/
def accepts (c : Clause) (value : Value) : Bool := c.comparator.accepts (c.target.order value)

/-- The members of a clause read so far. -/
structure Draft where
  id : Option String := none
  comparator : Option Comparator := none
  target : Option Target := none

/-- Reads the rest of a member from behind its name. -/
def member (room : Nat) (draft : Draft) (name : String) (bs : Bytes) : Reading Draft :=
  if name = "id" then
    Decoder.field name draft.id Decoder.text (fun s => { draft with id := some s }) room bs
  else if name = "condition" then
    Decoder.field name draft.comparator Comparator.decoder
      (fun c => { draft with comparator := some c }) room bs
  else if name = "value" then
    Decoder.field name draft.target Target.decoder (fun t => { draft with target := some t }) room
      bs
  else Decoder.unknownField draft bs

/-- Every member must be given. -/
def finish (draft : Draft) : Except Cause Clause := do
  let id ← Decoder.required "id" draft.id
  let comparator ← Decoder.required "condition" draft.comparator
  let target ← Decoder.required "value" draft.target
  return ⟨id, comparator, target⟩

/-- The name of the record in messages. -/
def recordName : String := "FilterClause"

/-- Reads a clause written as the list of its three members. -/
def inOrder : Decoder Clause := fun room bs =>
  (Decoder.item 0 (.error (.wrongLength 0 recordName 3)) Decoder.text room
      bs).andThen fun id rest =>
    (Decoder.item 1 (.error (.wrongLength 1 recordName 3)) Comparator.decoder room
        rest).andThen fun comparator rest =>
      (Decoder.item 2 (.error (.wrongLength 2 recordName 3)) Target.decoder room
          rest).andThen fun target rest =>
        .ok (⟨id, comparator, target⟩, rest)

def decoder : Decoder Clause :=
  Decoder.record
    { record := recordName, empty := {}, member := member, finish := finish,
      inOrder := some inOrder }

def print (c : Clause) : String :=
  printRecord
    [("id", printText c.id), ("condition", c.comparator.print), ("value", c.target.print)]

end Clause

namespace FilterSet

/-- Decodes without judging: empty identifiers and falsy targets are taken as they are. -/
def decoder : Decoder FilterSet := Decoder.list Clause.decoder

def print (filters : FilterSet) : String := printList (filters.map Clause.print)

end FilterSet

end FormSieve
