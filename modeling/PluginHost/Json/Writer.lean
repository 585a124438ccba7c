import PluginHost.Json.Value
import PluginHost.Bytes

/-!
# Writing JSON

Values are written without blanks.  In a text the quotation mark, the backslash and the control
characters are escaped, all else stands for itself.
-/

namespace PluginHost.Json

/-- A character as it stands in a JSON text. -/
def escapedChar (c : Char) : List Char :=
  if c == '"' then ['\\', '"']
  else if c == '\\' then ['\\', '\\']
  else if c == '\x08' then ['\\', 'b']
  else if c == '\x0c' then ['\\', 'f']
  else if c == '\n' then ['\\', 'n']
  else if c == '\r' then ['\\', 'r']
  else if c == '\t' then ['\\', 't']
  else if c.toNat < 0x20 then
    ['\\', 'u', '0', '0', hexDigit (c.toNat / 16), hexDigit (c.toNat % 16)]
  else [c]

/-- A text in quotation marks. -/
def stringChars (s : String) : List Char :=
  '"' :: s.toList.flatMap escapedChar ++ ['"']

/-- The text of a number. -/
def Number.text : Number → String
  | .integer i => toString i
  | .fraction x => x.text

mutual

/-- The characters of a value. -/
def Value.chars : Value → List Char
  | .null => "null".toList
  | .bool true => "true".toList
  | .bool false => "false".toList
  | .number n => n.text.toList
  | .string s => stringChars s
  | .array items => '[' :: (itemsChars items ++ [']'])
  | .object members => '\x7b' :: (membersChars members ++ ['\x7d'])

/-- The items of an array, with commas between. -/
def itemsChars : List Value → List Char
  | [] => []
  | [v] => v.chars
  | v :: rest => v.chars ++ ',' :: itemsChars rest

/-- The members of an object, with commas between. -/
def membersChars : List (String × Value) → List Char
  | [] => []
  | [(k, v)] => stringChars k ++ ':' :: v.chars
  | (k, v) :: rest => stringChars k ++ ':' :: (v.chars ++ ',' :: membersChars rest)

end

/-- The text of a value. -/
def Value.text (v : Value) : String := String.ofList v.chars

/-- An object whose members are written in the given order. -/
def recordChars (fields : List (String × List Char)) : List Char :=
  '\x7b' :: ((fields.map fun (k, v) => stringChars k ++ ':' :: v).intersperse [','] |>.flatten)
    ++ ['\x7d']

end PluginHost.Json
