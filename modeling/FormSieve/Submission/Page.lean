import FormSieve.Submission.Basic

/-!
# Pages of submissions

A form may have more submissions than are handed out at once. A page holds some of them and
says how many there are in all and on how many pages. A page that the provider hands out and
one that is left after filtering have the same form and go by different names in messages.
-/

namespace FormSieve

structure Page where
  responses : List Submission
  /-- The number of submissions on all pages. -/
  totalResponses : UInt64
  /-- The number of pages. -/
  pageCount : UInt64

namespace Page

open Json

/-- The members of a page read so far. -/
structure Draft where
  responses : Option (List Submission) := none
  totalResponses : Option UInt64 := none
  pageCount : Option UInt64 := none

/-- Reads the rest of a member from behind its name. -/
def member (room : Nat) (draft : Draft) (name : String) (bs : Bytes) : Reading Draft :=
  if name = "responses" then
    Decoder.field name draft.responses (Decoder.list Submission.decoder)
      (fun rs => { draft with responses := some rs }) room bs
  else if name = "totalResponses" then
    Decoder.field name draft.totalResponses Decoder.unsigned64
      (fun n => { draft with totalResponses := some n }) room bs
  else if name = "pageCount" then
    Decoder.field name draft.pageCount Decoder.unsigned64
      (fun n => { draft with pageCount := some n }) room bs
  else Decoder.unknownField draft bs

/-- Every member must be given. -/
def finish (draft : Draft) : Except Cause Page := do
  let responses ← Decoder.required "responses" draft.responses
  let totalResponses ← Decoder.required "totalResponses" draft.totalResponses
  let pageCount ← Decoder.required "pageCount" draft.pageCount
  return ⟨responses, totalResponses, pageCount⟩

/-- Reads a page written as the list of its three members. -/
def inOrder (record : String) : Decoder Page := fun room bs =>
  (Decoder.item 0 (.error (.wrongLength 0 record 3)) (Decoder.list Submission.decoder) room
      bs).andThen fun responses rest =>
    (Decoder.item 1 (.error (.wrongLength 1 record 3)) Decoder.unsigned64 room
        rest).andThen fun totalResponses rest =>
      (Decoder.item 2 (.error (.wrongLength 2 record 3)) Decoder.unsigned64 room
          rest).andThen fun pageCount rest =>
        .ok (⟨responses, totalResponses, pageCount⟩, rest)

/-- A page that goes by the name `record` in messages. -/
def decoderFor (record : String) : Decoder Page :=
  Decoder.record
    { record, empty := {}, member := member, finish := finish, inOrder := some (inOrder record) }

/-- A page as the provider hands it out. -/
def decoder : Decoder Page := decoderFor "SubmissionsPage"

/-- A page that is left after filtering. -/
def filteredDecoder : Decoder Page := decoderFor "FilteredPage"

def print (p : Page) : String :=
  printRecord
    [("responses", printList (p.responses.map Submission.print)),
      ("totalResponses", p.totalResponses.toNat.repr), ("pageCount", p.pageCount.toNat.repr)]

end Page

end FormSieve
