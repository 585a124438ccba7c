import PluginHost.Config.Settings
import PluginHost.Json.Writer
import PluginHost.Log
import PluginHost.Text.Quoted

/-!
# Log records as lines

A record is written as a line of text or as a JSON object, as the configuration asks for.  In a line
of text, characters that could drive a terminal are escaped.
-/

namespace PluginHost

/-- A character as it stands in a line of text. -/
def logChar (c : Char) : List Char :=
  if c == '\x1b' || c == '\x07' || c == '\x08' || c == '\x0c' || c == '\x7f' then
    ['\\', 'x', hexDigit (c.toNat / 16), hexDigit (c.toNat % 16)]
  else if 0x80 ≤ c.toNat ∧ c.toNat ≤ 0x9f then Text.codePointEscape c
  else [c]

namespace LogRecord

/-- A record as a line of text. -/
def textLine (r : LogRecord) : String :=
  r.level.name ++ " " ++ String.ofList (r.message.toList.flatMap logChar)

/-- A record as a JSON object.  Its time is left open. -/
def jsonLine (r : LogRecord) : String :=
  String.ofList (Json.recordChars [
    ("timestamp", Json.stringChars ""),
    ("level", Json.stringChars r.level.name),
    ("fields", Json.recordChars [("message", Json.stringChars r.message)]),
    ("target", Json.stringChars r.source.name)])

/-- A record as a line, with its newline. -/
def line (format : LogFormat) (r : LogRecord) : Bytes :=
  match format with
  | .text => utf8 (r.textLine ++ "\n")
  | .json => utf8 (r.jsonLine ++ "\n")

end LogRecord

end PluginHost
