import FormSieve.Json.Decoder
import FormSieve.Json.Printer

/-!
# Answers

An answer to one question of a form. Its identifier and its value are what filters look at;
every other member that comes with it is carried along unchanged.
-/

namespace FormSieve

/-- An answer to a question, a calculation or a parameter of the form's address. -/
structure Answer where
  /-- The question that is answered. -/
  id : String
  name : String
  kind : Option String
  value : Json.Value
  /-- The members without a meaning here, by name. -/
  extra : Json.Members

namespace Answer

open Json

/-- An answer that says nothing but its value. -/
def plain (id : String) (value : Value) : Answer := ⟨id, id, none, value, []⟩

/-- The members of an answer read so far. -/
structure Draft where
  id : Option String := none
  name : Option String := none
  kind : Option (Option String) := none
  value : Option Value := none
  extra : Members := []

/-- Reads the rest of a member from behind its name. -/
def member (room : Nat) (draft : Draft) (name : String) (bs : Bytes) : Reading Draft :=
  if name = "id" then
    Decoder.field name draft.id Decoder.text (fun s => { draft with id := some s }) room bs
  else if name = "name" then
    Decoder.field name draft.name Decoder.text (fun s => { draft with name := some s }) room bs
  else if name = "type" then
    Decoder.field name draft.kind (Decoder.optional Decoder.text)
      (fun k => { draft with kind := some k }) room bs
  else if name = "value" then
    Decoder.field name draft.value Decoder.value (fun v => { draft with value := some v }) room bs
  else Decoder.extraField draft.extra name (fun ms => { draft with extra := ms }) room bs

/-- An answer must have an identifier; it has an empty name and the value `null` if nothing
else is said. -/
def finish (draft : Draft) : Except Cause Answer :=
  (Decoder.required "id" draft.id).map fun id =>
    ⟨id, draft.name.getD "", draft.kind.getD none, draft.value.getD .null, draft.extra⟩

def decoder : Decoder Answer :=
  Decoder.record
    { record := "SubmissionComponent", empty := {}, member := member, finish := finish }

/-- The kind is left out if there is none. -/
def print (a : Answer) : String :=
  printRecord <|
    [("id", printText a.id), ("name", printText a.name)] ++
      (a.kind.toList.map fun k => ("type", printText k)) ++
      ("value", a.value.print) :: printMembers a.extra

end Answer

end FormSieve
