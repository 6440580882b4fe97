import FormSieve.Json.Value

/-!
# What can be wrong with a document

Reading either finds a document malformed or finds it to be the wrong kind of thing. A fault
knows what was left to read when it was found, from which its line and column follow.
-/

namespace FormSieve.Json

/-- What a document has where something else was expected. -/
inductive Found where
  | null
  | boolean (b : Bool)
  | integer (n : Int)
  | float (x : Binary64)
  | text (s : String)
  | array
  | object
deriving DecidableEq, Repr

/-- What was expected. -/
inductive Expected where
  | text
  | sequence
  | boolean
  | unsigned16
  | unsigned64
  | unit
  | variant
  | record (name : String)
deriving DecidableEq, Repr

/-- Why a document is refused. -/
inductive Cause where
  | unfinishedList
  | unfinishedObject
  | unfinishedText
  | unfinishedValue
  | colonExpected
  | commaOrBracketExpected
  | commaOrBraceExpected
  | wordExpected
  | valueExpected
  | badEscape
  | badNumber
  | numberTooLarge
  | badText
  | controlCharacter
  | nameExpected
  | loneSurrogate
  | unfinishedSurrogate
  | trailingComma
  | trailingCharacters
  | nestedTooDeeply
  | missingField (name : String)
  | duplicateField (name : String)
  | wrongType (found : Found) (expected : Expected)
  | wrongValue (n : Int) (expected : Expected)
  | wrongLength (length : Nat) (record : String) (fields : Nat)
  | unknownVariant (name : String) (known : List String)
  | noVariant (type : String)
deriving DecidableEq, Repr

/-- A fault in a document under way. A fault that a field causes as a whole is `pending` until
the record around it has been closed, and is then placed where that closing stands. -/
structure Fault where
  cause : Cause
  rest : Bytes
  pending : Bool := false
deriving DecidableEq, Repr

/-- A place in a document: the line, from 1, and the number of bytes of it that precede. -/
structure Position where
  line : Nat
  column : Nat
deriving DecidableEq, Repr

namespace Position

def step (p : Position) (b : UInt8) : Position :=
  if b = Ascii.newline then ⟨p.line + 1, 0⟩ else ⟨p.line, p.column + 1⟩

/-- Where one stands after reading some bytes from the start. -/
def after (consumed : Bytes) : Position := consumed.foldl step ⟨1, 0⟩

end Position

/-- A refused document: the cause, and where it was found unless it concerns the whole. -/
structure Refusal where
  cause : Cause
  position : Option Position
deriving DecidableEq, Repr

/-- The refusal of `document` for a fault found in it. -/
def Fault.refuse (document : Bytes) (fault : Fault) : Refusal where
  cause := fault.cause
  position :=
    if fault.pending then none
    else some (Position.after (document.take (document.length - fault.rest.length)))

end FormSieve.Json
