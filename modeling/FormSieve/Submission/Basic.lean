import FormSieve.Submission.Answer

/-!
# Submissions

What one person sent in: the answers to the questions of a form, and whatever else the provider
records with them, which is carried along unchanged.
-/

namespace FormSieve

structure Submission where
  answers : List Answer
  /-- The members without a meaning here, by name. -/
  extra : Json.Members

namespace Submission

open Json

/-- All answers to one question. -/
def answersTo (s : Submission) (id : String) : List Answer := s.answers.filter (·.id = id)

/-- The members of a submission read so far. -/
structure Draft where
  answers : Option (List Answer) := none
  extra : Members := []

/-- Reads the rest of a member from behind its name. -/
def member (room : Nat) (draft : Draft) (name : String) (bs : Bytes) : Reading Draft :=
  if name = "questions" then
    Decoder.field name draft.answers (Decoder.list Answer.decoder)
      (fun as => { draft with answers := some as }) room bs
  else Decoder.extraField draft.extra name (fun ms => { draft with extra := ms }) room bs

def decoder : Decoder Submission :=
  Decoder.record
    { record := "Submission", empty := {}, member := member,
      finish := fun draft => .ok ⟨draft.answers.getD [], draft.extra⟩ }

def print (s : Submission) : String :=
  printRecord (("questions", printList (s.answers.map Answer.print)) :: printMembers s.extra)

end Submission

end FormSieve
