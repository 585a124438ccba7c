import PluginHost.CommandLine.Grammar
import PluginHost.Text.Blank
import PluginHost.Text.Numeral

/-!
# Help texts

The help text of a command says what it is for, how it is used, and lists its sub-commands and
flags in two columns.  The second column is broken into lines at spaces so that it fits the width
of the page; if the first column leaves too little room, the second goes below it.
-/

namespace PluginHost.CommandLine

open Text

/-- The width of a page when nothing else is known. -/
def defaultWidth : Nat := 100

/-- The width of a page that the environment asks for. -/
def pageWidth (columns : Option Bytes) : Nat :=
  ((columns.bind chars?).bind (readNat maxUInt64)).getD defaultWidth

/-- How many columns characters take.  What stands between a control character and the letter that
ends its sequence is not shown. -/
def shownWidth (isHidden : Bool) : List Char → Nat
  | [] => 0
  | c :: rest =>
      if c.toNat < 32 || c.toNat == 127 then shownWidth true rest
      else if isHidden then shownWidth (c != 'm') rest
      else 1 + shownWidth false rest

/-- The words of a line, each with the spaces behind it. -/
def spacedWords (cs : List Char) : List (List Char) :=
  match cs with
  | [] => []
  | c :: rest =>
      match spacedWords rest with
      | [] => [[c]]
      | [] :: words => [c] :: words
      | (d :: word) :: words =>
          if c == ' ' && d != ' ' then [c] :: (d :: word) :: words
          else (c :: d :: word) :: words

/-- The number of bytes of a text. -/
def byteLength (cs : List Char) : Nat := (utf8OfChars cs).length

/-- Puts words behind a first one, each on a new line if it does not fit.  New lines are indented
like the first one. -/
def fillLines (width : Nat) (indent : List Char) (used : Nat) (before : List Char) :
    List (List Char) → List Char
  | [] => before
  | word :: rest =>
      let bare := trimEnd word
      let shown := shownWidth false bare
      let blank := byteLength word - byteLength bare
      if width < used + shown then
        trimEnd before ++ '\n' :: indent
          ++ fillLines width indent (byteLength indent + shown + blank) word rest
      else before ++ fillLines width indent (used + shown + blank) word rest

/-- A line of text, broken so that it fits. -/
def wrapLine (width : Nat) (line : List Char) : List Char :=
  match spacedWords line with
  | [] => []
  | word :: rest =>
      let bare := trimEnd word
      let indent := if isAllBlank word then word else []
      fillLines width indent (shownWidth false bare + (byteLength word - byteLength bare)) word rest

/-- A text, broken so that it fits, with its further lines indented. -/
def paragraph (width indent : Nat) (text : List Char) : List Char :=
  let lines := (splitOn '\n' text).map (wrapLine width)
  let text := trimEnd (['\n'].intercalate lines)
  (['\n'] ++ List.replicate indent ' ').intercalate (splitOn '\n' text)

/-- A text in which the mark for a new line is one. -/
def withNewLines : List Char → List Char
  | '\x7b' :: 'n' :: '\x7d' :: rest => '\n' :: withNewLines rest
  | c :: rest => c :: withNewLines rest
  | [] => []

/-- The indent of the second column when it stands below the first. -/
def belowIndent : Nat := 10

/-- One line of a list: its first column, and its second. -/
structure HelpEntry where
  label : List Char
  about : List Char

/-- The second column has too little room beside a first one of a width. -/
def HelpEntry.isCramped (width labelWidth : Nat) (e : HelpEntry) : Bool :=
  let taken := labelWidth + 12
  taken ≤ width && 2 * width < 5 * taken && width - taken < shownWidth false e.about

/-- The lines of a list. -/
def helpList (width : Nat) (entries : List HelpEntry) : List Char :=
  let labelWidth := (entries.map fun e => shownWidth false e.label).foldl max 2
  let isBelow := entries.any (·.isCramped width labelWidth)
  let line (e : HelpEntry) : List Char :=
    let gap := List.replicate (labelWidth + 2 - shownWidth false e.label) ' '
    let about := withNewLines e.about
    if isBelow then
      [' ', ' '] ++ e.label ++ '\n' :: List.replicate belowIndent ' '
        ++ paragraph (width - belowIndent) belowIndent about
    else
      [' ', ' '] ++ e.label ++ gap ++ paragraph (width - (labelWidth + 4)) (labelWidth + 4) about
  ['\n'].intercalate (entries.map line)

/-- The value of a flag as it is shown. -/
def Flag.placeholder (f : Flag) : String :=
  match f.use with
  | .value _ => " <" ++ f.name.toUpper ++ ">"
  | _ => ""

/-- A flag as it is shown in the list of flags. -/
def Flag.entry (f : Flag) : HelpEntry where
  label :=
    (match f.letter with
      | some letter => ['-', letter, ',', ' ']
      | none => [' ', ' ', ' ', ' ']) ++ ("--" ++ f.name ++ f.placeholder).toList
  about := f.about.toList

/-- A sub-command as it is shown in the list of sub-commands. -/
def Command.entry (c : Command) : HelpEntry := ⟨c.name.toList, c.about.toList⟩

/-- How a command is used. -/
def Command.usage (c : Command) (path : List String) : String :=
  let isOption (f : Flag) : Bool :=
    match f.use with
    | .switch => true
    | .value _ => !c.choice.contains f.name
    | _ => false
  let options := if c.flags.any isOption then " [OPTIONS]" else ""
  let chosen := (c.flags.filter fun f => c.choice.contains f.name).map fun f =>
    "--" ++ f.name ++ f.placeholder
  let choice := if chosen.isEmpty then "" else " <" ++ "|".intercalate chosen ++ ">"
  let arguments := c.arguments.map fun (name, _) => " <" ++ name ++ ">"
  let subcommand := if c.subcommands.isEmpty then "" else " <COMMAND>"
  " ".intercalate path ++ options ++ choice ++ "".intercalate arguments ++ subcommand

/-- The flags of a command in the order in which they are shown. -/
def Command.shownFlags (c : Command) : List Flag :=
  let isVersion (f : Flag) : Bool := f.use == .version
  c.flags.filter (!isVersion ·) ++ [helpFlag] ++ c.flags.filter isVersion

/-- The help text of a command that is reached by names. -/
def Command.help (c : Command) (width : Nat) (path : List String) : String :=
  let about := paragraph width 0 (withNewLines c.about.toList)
  let commands :=
    if c.subcommands.isEmpty then []
    else "Commands:\n".toList ++ helpList width ((c.subcommands ++ [helpCommand]).map Command.entry)
      ++ ['\n', '\n']
  String.ofList (about ++ "\n\nUsage: ".toList ++ (c.usage path).toList ++ ['\n', '\n'] ++ commands
    ++ "Options:\n".toList ++ helpList width (c.shownFlags.map Flag.entry) ++ ['\n'])

end PluginHost.CommandLine
