import PluginHost.Toml.Reader

/-!
# Writing TOML

Keys and texts are written in the plainest form that can hold them.  A key is bare, or in
quotation marks, or in apostrophes; a text has, beside the last two, forms over several lines.
Only when nothing else fits are characters escaped.
-/

namespace PluginHost.Toml

/-- The length of the longest run of a character. -/
def longestRun (c : Char) : Nat → List Char → Nat
  | _, [] => 0
  | run, d :: rest => if d == c then max (run + 1) (longestRun c (run + 1) rest) else longestRun c 0 rest

/-- A control character that has to be escaped in every form.  A tab has not, nor a line end. -/
def needsEscape (c : Char) : Bool :=
  (c.toNat < 0x20 || c.toNat == 0x7F) && c != '\t' && c != '\n'

/-- A hexadecimal digit in capital letters. -/
def capitalHexDigit (n : Nat) : Char :=
  if n < 10 then Char.ofNat (48 + n) else Char.ofNat (55 + n)

/-- A character as it stands between quotation marks, apart from quotation marks themselves. -/
def escapedChar (lines : Bool) (c : Char) : List Char :=
  if c == '\x08' then ['\\', 'b']
  else if c == '\t' then ['\\', 't']
  else if c == '\n' then (if lines then ['\n'] else ['\\', 'n'])
  else if c == '\x0c' then ['\\', 'f']
  else if c == '\r' then ['\\', 'r']
  else if c == '\\' then ['\\', '\\']
  else if c.toNat < 0x20 || c.toNat == 0x7F then
    ['\\', 'u', '0', '0', capitalHexDigit (c.toNat / 16), capitalHexDigit (c.toNat % 16)]
  else [c]

/-- The characters of a text between quotation marks.  Over several lines up to two quotation
marks in a row stand for themselves; `run` counts those that have just been written. -/
def escapedChars (lines : Bool) : Nat → List Char → List Char
  | _, [] => []
  | run, c :: rest =>
      if c == '"' then
        if lines && run < 2 then '"' :: escapedChars lines (run + 1) rest
        else '\\' :: '"' :: escapedChars lines 0 rest
      else escapedChar lines c ++ escapedChars lines 0 rest

/-- A text in quotation marks. -/
def basicForm (cs : List Char) : List Char := '"' :: (escapedChars false 0 cs ++ ['"'])

/-- A text in apostrophes. -/
def literalForm (cs : List Char) : List Char := '\'' :: (cs ++ ['\''])

/-- A line end is put in front of a text that has line ends. -/
def leadingLine (cs : List Char) : List Char := if cs.contains '\n' then ['\n'] else []

/-- A text in three quotation marks. -/
def basicLinesForm (cs : List Char) : List Char :=
  ['"', '"', '"'] ++ leadingLine cs ++ escapedChars true 0 cs ++ ['"', '"', '"']

/-- A text in three apostrophes. -/
def literalLinesForm (cs : List Char) : List Char :=
  ['\'', '\'', '\''] ++ leadingLine cs ++ cs ++ ['\'', '\'', '\'']

/-- The characters of a text in its plainest form. -/
def stringForm (cs : List Char) : List Char :=
  let controls := cs.any needsEscape
  let lines := cs.contains '\n'
  let quotes := longestRun '"' 0 cs
  let apostrophes := longestRun '\'' 0 cs
  if !controls && !cs.contains '\\' && quotes == 0 && !lines then basicForm cs
  else if !controls && apostrophes == 0 && !lines then literalForm cs
  else if !controls && !cs.contains '\\' && quotes ≤ 2 then basicLinesForm cs
  else if !controls && apostrophes ≤ 2 then literalLinesForm cs
  else if lines then basicLinesForm cs
  else basicForm cs

/-- The characters of a key in its plainest form. -/
def keyForm (cs : List Char) : List Char :=
  let controls := cs.any fun c => needsEscape c || c == '\n'
  if !cs.isEmpty && cs.all isBare then cs
  else if !controls && !cs.contains '\\' && !cs.contains '"' then basicForm cs
  else if !controls && !cs.contains '\'' then literalForm cs
  else basicForm cs

/-- A line that sets a key. -/
def assignmentLine (key : String) (value : List Char) : List Char :=
  keyForm key.toList ++ [' ', '=', ' '] ++ value ++ ['\n']

/-- A line that opens a table. -/
def headerLine (path : List String) : List Char :=
  '[' :: ((path.map fun part => keyForm part.toList).intersperse ['.']).flatten ++ [']', '\n']

end PluginHost.Toml
