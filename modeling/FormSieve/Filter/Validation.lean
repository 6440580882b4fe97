import FormSieve.Filter.Clause
import FormSieve.Filter.Rejection
import FormSieve.Json.Message

/-!
# Validating filters

Filters arrive as a JSON text: a list of objects, each with a question, a comparator and a
value. They are accepted as a whole or not at all. Unlike in decoding, an empty question and an
empty or zero value are refused, and a member that is given twice counts as given last.
-/

namespace FormSieve

open Json

/-- The filters of a request as they are given. -/
inductive FilterParam where
  | single (text : String)
  /-- Given more than once; only the first one counts. -/
  | repeated (texts : List String)
deriving DecidableEq, Repr

namespace FilterParam

/-- The parameter given by all its occurrences, in order. -/
def ofOccurrences : List String → Option FilterParam
  | [] => none
  | [text] => some (single text)
  | texts => some (repeated texts)

/-- The occurrence that counts. -/
def first? : FilterParam → Option String
  | single text => some text
  | repeated texts => texts.head?

end FilterParam

/-- The comparator of a clause. -/
def Clause.comparatorOf? (members : Members) : Option Comparator :=
  match members.find? "condition" with
  | some (.text name) => Comparator.ofName? name
  | _ => none

/-- The question of a clause. -/
def Clause.idOf? (members : Members) : Option String :=
  match members.find? "id" with
  | some (.text id) => if id.isEmpty then none else some id
  | _ => none

/-- The target of a clause. Falsy targets count as not given. -/
def Clause.targetOf? (members : Members) : Option Target :=
  match (members.find? "value").bind Target.ofValue? with
  | some target => if target.isFalsy then none else some target
  | none => none

/-- The clause that a value describes. -/
def Clause.ofValue (value : Value) : Except ClauseFlaw Clause :=
  match value with
  | .object members =>
    match comparatorOf? members with
    | none => .error .unknownComparator
    | some comparator =>
      match idOf? members with
      | none => .error .badId
      | some id =>
        match targetOf? members with
        | none => .error .badTarget
        | some target => .ok ⟨id, comparator, target⟩
  | _ => .error .notAnObject

namespace FilterSet

/-- The clauses that values describe, counted from `index`. The first bad one decides. -/
def ofValues (index : Nat) : List Value → Except Rejection FilterSet
  | [] => .ok []
  | v :: vs =>
    match Clause.ofValue v with
    | .error flaw => .error (.invalidClause index flaw)
    | .ok clause =>
      match ofValues (index + 1) vs with
      | .error rejection => .error rejection
      | .ok clauses => .ok (clause :: clauses)

/-- The filters that a document describes. -/
def ofValue : Value → Except Rejection FilterSet
  | .array values => ofValues 0 values
  | _ => .error .notAnArray

/-- The filters that a text describes. -/
def ofText (text : String) : Except Rejection FilterSet :=
  match decode Decoder.value (Text.bytes text) with
  | .error refusal => .error (.malformed refusal.message)
  | .ok value => ofValue value

/-- The filters that a request asks for. Empty text counts as not given. -/
def ofParam (param : FilterParam) : Except Rejection FilterSet :=
  match param.first? with
  | none => .error .missing
  | some text => if text.isEmpty then .error .missing else ofText text

end FilterSet

end FormSieve
