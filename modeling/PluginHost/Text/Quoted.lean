import PluginHost.Bytes
import PluginHost.Text.Printable

/-!
# Quoted text

A text inside quotation marks, as error messages show it: quotation marks and backslashes are
escaped, and so is every character that cannot be seen by itself.
-/

namespace PluginHost.Text

/-- The hexadecimal digits of a number, without leading zeros. -/
def hexDigits (n : Nat) : List Char := (Nat.toDigits 16 n)

/-- A character by its code point in braces. -/
def codePointEscape (c : Char) : List Char :=
  ['\\', 'u', '\x7b'] ++ hexDigits c.toNat ++ ['\x7d']

/-- A character as it stands inside quotation marks. -/
def quotedChar (c : Char) : List Char :=
  if c == '"' then ['\\', '"']
  else if c == '\\' then ['\\', '\\']
  else if c == '\n' then ['\\', 'n']
  else if c == '\r' then ['\\', 'r']
  else if c == '\t' then ['\\', 't']
  else if c == '\x00' then ['\\', '0']
  else if isExtender c || !isPrintable c then codePointEscape c
  else [c]

/-- The text in quotation marks. -/
def quoted (s : String) : String :=
  String.ofList ('"' :: s.toList.flatMap quotedChar ++ ['"'])

/-- A character of a path as it stands inside quotation marks. -/
def quotedPathChar (c : Char) : List Char :=
  if c == '\'' then ['\\', '\''] else quotedChar c

/-- A byte that is no part of a character. -/
def byteEscape (b : UInt8) : List Char :=
  ['\\', 'x', (hexDigit (b.toNat / 16)).toUpper, (hexDigit (b.toNat % 16)).toUpper]

/-- The bytes of a path as they stand inside quotation marks. -/
def quotedPathBytes : Bytes → List Char
  | [] => []
  | b :: rest =>
      match utf8Units ((b :: rest).take 4) with
      | some c :: _ => quotedPathChar c ++ quotedPathBytes (rest.drop (c.utf8Size - 1))
      | _ => byteEscape b ++ quotedPathBytes rest
termination_by bytes => bytes.length
decreasing_by all_goals (simp; try omega)

/-- The path in quotation marks. -/
def quotedPath (p : Bytes) : String := String.ofList ('"' :: quotedPathBytes p ++ ['"'])

end PluginHost.Text
