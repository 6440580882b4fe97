import FormSieve.Http.Header
import FormSieve.Text.Utf8

/-!
# Texts of replies

The body of a reply is a run of bytes, and which text it is depends on its encoding. A mark at its
beginning says which encoding that is, or else the type that the reply states; where neither does,
it is UTF-8. The encodings themselves are those that a client knows. They are not described here:
a reader is any function that is right about UTF-8.
-/

namespace FormSieve

namespace Text

/-- The mark that a text in UTF-8 may begin with. -/
def utf8Mark : Bytes := [0xEF, 0xBB, 0xBF]

/-- Whether a run of bytes begins with the mark of an encoding: of UTF-8, or of UTF-16 in either
order of its bytes. -/
def isMarked (bs : Bytes) : Bool :=
  utf8Mark.isPrefixOf bs || [0xFE, 0xFF].isPrefixOf bs || [0xFF, 0xFE].isPrefixOf bs

@[simp] theorem isMarked_utf8Mark_append (bs : Bytes) : isMarked (utf8Mark ++ bs) = true := by
  simp [isMarked, utf8Mark]

end Text

namespace Http

/-- Whether a content type leaves it at UTF-8: there is none that can be read, it has no parameters,
or its only parameter names UTF-8. -/
def leavesUtf8 (contentType : Option Bytes) : Bool :=
  match contentType.bind plainText? with
  | none => true
  | some text =>
    let parameters := text.toList.dropWhile (· ≠ ';')
    parameters = [] || parameters.map Char.toLower = "; charset=utf-8".toList

end Http

/-- How a client reads the text of a body, from the type that the reply states. What is not of the
encoding is replaced, so that there is always a text. -/
structure TextReader where
  read : Option Bytes → Bytes → String
  /-- The mark of UTF-8 is believed, whatever the type says, and is no part of the text. -/
  read_marked : ∀ contentType body,
    read contentType (Text.utf8Mark ++ body) = Text.lossy body
  /-- Without a mark, and with a type that says nothing else, a body is in UTF-8. -/
  read_unmarked : ∀ contentType body, Text.isMarked body = false →
    Http.leavesUtf8 contentType = true → read contentType body = Text.lossy body

/-- A client that knows no encoding but UTF-8. -/
def TextReader.utf8 : TextReader where
  read _ body :=
    if Text.utf8Mark.isPrefixOf body then Text.lossy (body.drop Text.utf8Mark.length)
    else Text.lossy body
  read_marked _ body := by simp
  read_unmarked _ body unmarked _ := by
    simp only [Text.isMarked, Bool.or_eq_false_iff] at unmarked
    simp [unmarked.1.1]

end FormSieve
