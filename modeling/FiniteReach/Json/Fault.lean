import FiniteReach.Source
import FiniteReach.Text.Quoted

/-!
# What can be wrong with a JSON text
-/

namespace FiniteReach.Json

/-- What stands where another kind of value is expected. -/
inductive Found where
  | null
  | boolean (value : Bool)
  | integer (value : Int)
  /-- A number with a fraction or an exponent, or one too large for an integer, as it is shown. -/
  | real (shown : String)
  | text (value : String)
  | sequence
  | map
  deriving DecidableEq, Repr

/-- How a value is named in a message. -/
def Found.message : Found → String
  | .null => "null"
  | .boolean value => s!"boolean `{value}`"
  | .integer value => s!"integer `{value}`"
  | .real shown => s!"floating point `{shown}`"
  | .text value => "string " ++ Text.quoted value
  | .sequence => "sequence"
  | .map => "map"

/-- Why a JSON text has not been read. -/
inductive Fault where
  /-- The file or device failed. -/
  | io (cause : IoFault)
  | endInList
  | endInObject
  | endInText
  | endInValue
  | expectedColon
  | expectedCommaOrBracket
  | expectedCommaOrBrace
  /-- A literal is misspelt. -/
  | expectedLiteral
  | expectedValue
  | invalidEscape
  | invalidNumber
  | numberOutOfRange
  /-- The bytes between quotes are no text. -/
  | invalidText
  | controlCharacter
  | keyNotText
  /-- Half of a surrogate pair, or a pair in the wrong order. -/
  | loneSurrogate
  /-- Half of a surrogate pair with nothing of the kind after it. -/
  | halfPair
  | trailingComma
  | trailingCharacters
  /-- A value is of the wrong kind. -/
  | wrongKind (found : Found) (expected : String)
  /-- A number is of the right kind and is not allowed. -/
  | wrongValue (found : Found) (expected : String)
  /-- A list that stands for a record ends after `count` values. -/
  | wrongLength (count : Nat) (expected : String)
  | missingField (name : String)
  | duplicateField (name : String)
  /-- A name is neither of the two that are known. -/
  | unknownVariant (given first second : String)
  deriving DecidableEq, Repr

/-- The wording of a fault. -/
def Fault.message : Fault → String
  | .io cause => cause.message
  | .endInList => "EOF while parsing a list"
  | .endInObject => "EOF while parsing an object"
  | .endInText => "EOF while parsing a string"
  | .endInValue => "EOF while parsing a value"
  | .expectedColon => "expected `:`"
  | .expectedCommaOrBracket => "expected `,` or `]`"
  | .expectedCommaOrBrace => "expected `,` or `\x7d`"
  | .expectedLiteral => "expected ident"
  | .expectedValue => "expected value"
  | .invalidEscape => "invalid escape"
  | .invalidNumber => "invalid number"
  | .numberOutOfRange => "number out of range"
  | .invalidText => "invalid unicode code point"
  | .controlCharacter => "control character (\\u0000-\\u001F) found while parsing a string"
  | .keyNotText => "key must be a string"
  | .loneSurrogate => "lone leading surrogate in hex escape"
  | .halfPair => "unexpected end of hex escape"
  | .trailingComma => "trailing comma"
  | .trailingCharacters => "trailing characters"
  | .wrongKind found expected => s!"invalid type: {found.message}, expected {expected}"
  | .wrongValue found expected => s!"invalid value: {found.message}, expected {expected}"
  | .wrongLength count expected => s!"invalid length {count}, expected {expected}"
  | .missingField name => s!"missing field `{name}`"
  | .duplicateField name => s!"duplicate field `{name}`"
  | .unknownVariant given first second =>
    s!"unknown variant `{given}`, expected `{first}` or `{second}`"

end FiniteReach.Json
