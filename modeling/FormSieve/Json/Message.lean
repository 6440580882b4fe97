import FormSieve.Json.Fault
import FormSieve.Json.Printer

/-!
# The wording of faults
-/

namespace FormSieve.Json

def Found.message : Found → String
  | .null => "null"
  | .boolean b => "boolean `" ++ (if b then "true" else "false") ++ "`"
  | .integer n => "integer `" ++ printInt n ++ "`"
  | .float x => "floating point `" ++ printFloat x ++ "`"
  | .text s => "string " ++ Text.quoted s
  | .array => "sequence"
  | .object => "map"

def Expected.message : Expected → String
  | .text => "a string"
  | .sequence => "a sequence"
  | .boolean => "a boolean"
  | .unsigned16 => "u16"
  | .unsigned64 => "u64"
  | .unit => "unit"
  | .variant => "variant identifier"
  | .record name => "struct " ++ name

/-- Names between backquotes, separated by commas. -/
def namesMessage (names : List String) : String :=
  ", ".intercalate (names.map fun name => "`" ++ name ++ "`")

def Cause.message : Cause → String
  | .unfinishedList => "EOF while parsing a list"
  | .unfinishedObject => "EOF while parsing an object"
  | .unfinishedText => "EOF while parsing a string"
  | .unfinishedValue => "EOF while parsing a value"
  | .colonExpected => "expected `:`"
  | .commaOrBracketExpected => "expected `,` or `]`"
  | .commaOrBraceExpected => "expected `,` or `\x7d`"
  | .wordExpected => "expected ident"
  | .valueExpected => "expected value"
  | .badEscape => "invalid escape"
  | .badNumber => "invalid number"
  | .numberTooLarge => "number out of range"
  | .badText => "invalid unicode code point"
  | .controlCharacter => "control character (\\u0000-\\u001F) found while parsing a string"
  | .nameExpected => "key must be a string"
  | .loneSurrogate => "lone leading surrogate in hex escape"
  | .unfinishedSurrogate => "unexpected end of hex escape"
  | .trailingComma => "trailing comma"
  | .trailingCharacters => "trailing characters"
  | .nestedTooDeeply => "recursion limit exceeded"
  | .missingField name => "missing field `" ++ name ++ "`"
  | .duplicateField name => "duplicate field `" ++ name ++ "`"
  | .wrongType found expected =>
    "invalid type: " ++ found.message ++ ", expected " ++ expected.message
  | .wrongValue n expected =>
    "invalid value: integer `" ++ printInt n ++ "`, expected " ++ expected.message
  | .wrongLength length record fields =>
    "invalid length " ++ length.repr ++ ", expected struct " ++ record ++ " with " ++
      fields.repr ++ " elements"
  | .unknownVariant name known =>
    "unknown variant `" ++ name ++ "`, expected one of " ++ namesMessage known
  | .noVariant type => "data did not match any variant of untagged enum " ++ type

def Refusal.message (refusal : Refusal) : String :=
  match refusal.position with
  | none => refusal.cause.message
  | some p =>
    refusal.cause.message ++ " at line " ++ p.line.repr ++ " column " ++ p.column.repr

end FormSieve.Json
