import FormSieve.Text.Percent
import FormSieve.Text.Utf8

/-!
# Query pairs

A query is a list of pairs of texts, written in the form encoding: pairs are joined by `&`, a
name and its value by `=`, a blank is `+`, and every byte other than an ASCII letter, a digit
or one of `*-._` is percent-encoded. Reading accepts more than writing produces: empty pieces
are dropped, a piece without `=` has an empty value, and bytes that are no text are replaced.
-/

namespace FormSieve.Form

open Ascii

/-- One name or value as it is read. -/
def decodePart (part : Bytes) : String :=
  Text.lossy (Percent.decode (part.map fun b => if b = plus then space else b))

/-- The pairs of a query, in order and with repetitions. -/
def decode (query : Bytes) : List (String × String) :=
  ((query.splitOn ampersand).filter (!·.isEmpty)).map fun piece =>
    (decodePart (piece.cutAt equalSign).1, decodePart (piece.cutAt equalSign).2)

/-- The bytes that are written as they are. -/
def keeps (b : UInt8) : Bool :=
  isAlphanumeric b || b = 0x2A || b = 0x2D || b = 0x2E || b = 0x5F

def encodePart (s : String) : List Char :=
  (Text.bytes s).flatMap fun b =>
    if keeps b then [Char.ofNat b.toNat]
    else if b = space then ['+']
    else Percent.encodeByte b

def encodePair (pair : String × String) : List Char :=
  encodePart pair.1 ++ '=' :: encodePart pair.2

def encode (pairs : List (String × String)) : String :=
  String.ofList (List.intercalate ['&'] (pairs.map encodePair))

end FormSieve.Form
