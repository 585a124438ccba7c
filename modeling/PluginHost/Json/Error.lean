import PluginHost.Json.Writer
import PluginHost.Text.Quoted

/-!
# Why a JSON text is refused

The causes fall into two groups: the text is no JSON, or it is JSON but not of the wanted kind.
`Error.message` has the wording.
-/

namespace PluginHost.Json

open PluginHost.Decimal

/-- What stands where something else was expected. -/
inductive Found where
  | null
  | boolean (b : Bool)
  | integer (i : Int)
  | floating (x : Double)
  | text (s : String)
  | sequence
  | map
  deriving DecidableEq, Repr

/-- The words for what was found. -/
def Found.words : Found → String
  | .null => "null"
  | .boolean b => s!"boolean `{b}`"
  | .integer i => s!"integer `{i}`"
  | .floating x => "floating point `" ++ x.text ++ "`"
  | .text s => "string " ++ Text.quoted s
  | .sequence => "sequence"
  | .map => "map"

/-- What kind of thing a value is. -/
def Value.found : Value → Found
  | .null => .null
  | .bool b => .boolean b
  | .number (.integer i) => .integer i
  | .number (.fraction x) => .floating x
  | .string s => .text s
  | .array _ => .sequence
  | .object _ => .map

/-- The causes for which a JSON text is refused. -/
inductive Error where
  | eofInValue
  | eofInString
  | eofInList
  | eofInObject
  | expectedValue
  | expectedIdent
  | expectedColon
  | expectedCommaOrBracket
  | expectedCommaOrBrace
  | keyMustBeString
  | trailingCharacters
  | trailingComma
  | controlCharacter
  | invalidEscape
  | loneSurrogate
  | endOfHexEscape
  | numberOutOfRange
  | invalidNumber
  | recursionLimit
  | missingField (name : String)
  | duplicateField (name : String)
  | invalidType (found : Found) (expected : String)
  | invalidValue (found : Found) (expected : String)
  | invalidLength (length : Nat) (expected : String)
  | noVariant (name : String)
  deriving DecidableEq, Repr

/-- The wording of each cause. -/
def Error.message : Error → String
  | .eofInValue => "EOF while parsing a value"
  | .eofInString => "EOF while parsing a string"
  | .eofInList => "EOF while parsing a list"
  | .eofInObject => "EOF while parsing an object"
  | .expectedValue => "expected value"
  | .expectedIdent => "expected ident"
  | .expectedColon => "expected `:`"
  | .expectedCommaOrBracket => "expected `,` or `]`"
  | .expectedCommaOrBrace => "expected `,` or `\x7d`"
  | .keyMustBeString => "key must be a string"
  | .trailingCharacters => "trailing characters"
  | .trailingComma => "trailing comma"
  | .controlCharacter => "control character (\\u0000-\\u001F) found while parsing a string"
  | .invalidEscape => "invalid escape"
  | .loneSurrogate => "lone leading surrogate in hex escape"
  | .endOfHexEscape => "unexpected end of hex escape"
  | .numberOutOfRange => "number out of range"
  | .invalidNumber => "invalid number"
  | .recursionLimit => "recursion limit exceeded"
  | .missingField name => "missing field `" ++ name ++ "`"
  | .duplicateField name => "duplicate field `" ++ name ++ "`"
  | .invalidType found expected => "invalid type: " ++ found.words ++ ", expected " ++ expected
  | .invalidValue found expected => "invalid value: " ++ found.words ++ ", expected " ++ expected
  | .invalidLength length expected => s!"invalid length {length}, expected " ++ expected
  | .noVariant name => "data did not match any variant of untagged enum " ++ name

end PluginHost.Json
