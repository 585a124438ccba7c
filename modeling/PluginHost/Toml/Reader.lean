import PluginHost.Toml.Scalar

/-!
# Reading TOML

`parse?` reads a document into the members of its root table.  It follows the language of version
1.0: one assignment or header per line, comments behind either, no key set twice, no table opened
twice.
-/

namespace PluginHost.Toml

open Text

/-- A reader takes the rest of the text and may refuse it. -/
abbrev Reader (α : Type) := List Char → Option (α × List Char)

/-- A blank within a line. -/
def isBlank (c : Char) : Bool := c == ' ' || c == '\t'

/-- The rest without blanks. -/
def skipBlanks (cs : List Char) : List Char := cs.dropWhile isBlank

/-- A character that may stand in a comment. -/
def inComment (c : Char) : Bool := c == '\t' || (0x20 ≤ c.toNat && c.toNat != 0x7F)

/-- The rest behind the end of a line. -/
def newline? : List Char → Option (List Char)
  | '\n' :: cs => some cs
  | '\r' :: '\n' :: cs => some cs
  | _ => none

/-- The rest without a comment. -/
def skipComment : List Char → List Char
  | '#' :: cs => cs.dropWhile inComment
  | cs => cs

/-- Passes over what may stand behind a statement: blanks, a comment, and the end of the line. -/
def endLine (cs : List Char) : Option (List Char) :=
  match skipComment (skipBlanks cs) with
  | [] => some []
  | cs => newline? cs

/-- Passes over blanks, comments and line ends; the number bounds how many. -/
def skipLines : Nat → List Char → Option (List Char)
  | 0, cs => some cs
  | fuel + 1, cs =>
      match skipBlanks cs with
      | '#' :: cs => newline? (skipComment ('#' :: cs)) >>= skipLines fuel
      | '\n' :: cs => skipLines fuel cs
      | '\r' :: cs => newline? ('\r' :: cs) >>= skipLines fuel
      | cs => some cs

/-! ## Texts -/

/-- The character of a code point in hexadecimal digits. -/
def codePoint? (digits : List Char) : Option Char := do
  if !digits.all fun c => (digitOf 16 c).isSome then none
  else
    let n ← digitRun? 16 0 digits
    if h : n.isValidChar then some (Char.ofNatAux n h) else none

/-- Reads what follows a backslash. -/
def escape? : Reader Char
  | 'b' :: cs => some ('\x08', cs)
  | 't' :: cs => some ('\t', cs)
  | 'n' :: cs => some ('\n', cs)
  | 'f' :: cs => some ('\x0c', cs)
  | 'r' :: cs => some ('\r', cs)
  | '"' :: cs => some ('"', cs)
  | '\\' :: cs => some ('\\', cs)
  | 'u' :: cs =>
      if cs.length < 4 then none else do some (← codePoint? (cs.take 4), cs.drop 4)
  | 'U' :: cs =>
      if cs.length < 8 then none else do some (← codePoint? (cs.take 8), cs.drop 8)
  | _ => none

/-- A character that may stand in a text within a line. -/
def inText (c : Char) : Bool := c == '\t' || (0x20 ≤ c.toNat && c.toNat != 0x7F)

/-- Reads a text up to its quotation mark; the number bounds its length. -/
def basic : Nat → Reader (List Char)
  | 0, _ => none
  | _ + 1, [] => none
  | _ + 1, '"' :: cs => some ([], cs)
  | fuel + 1, '\\' :: cs => do
      let (c, cs) ← escape? cs
      let (more, cs) ← basic fuel cs
      some (c :: more, cs)
  | fuel + 1, c :: cs =>
      if inText c then do
        let (more, cs) ← basic fuel cs
        some (c :: more, cs)
      else none

/-- Reads a literal text up to its apostrophe. -/
def literal : Reader (List Char)
  | [] => none
  | '\'' :: cs => some ([], cs)
  | c :: cs =>
      if inText c then do
        let (more, cs) ← literal cs
        some (c :: more, cs)
      else none

/-- The run of a quotation character at the front of the rest: up to two of them belong to a text
that ends here. -/
def closing? (quote : Char) (cs : List Char) : Option (List Char × List Char) :=
  let count := (cs.takeWhile (· == quote)).length
  if count < 3 then none
  else
    let kept := min (count - 3) 2
    some (List.replicate kept quote, cs.drop (kept + 3))

/-- Passes over blanks and line ends; the number bounds how many. -/
def skipSpread : Nat → List Char → List Char
  | 0, cs => cs
  | fuel + 1, cs =>
      match cs with
      | ' ' :: cs => skipSpread fuel cs
      | '\t' :: cs => skipSpread fuel cs
      | '\n' :: cs => skipSpread fuel cs
      | '\r' :: '\n' :: cs => skipSpread fuel cs
      | cs => cs

/-- Reads a text of several lines up to its three quotation marks.  A backslash at the end of a
line joins it with the next. -/
def basicLines : Nat → Reader (List Char)
  | 0, _ => none
  | _ + 1, [] => none
  | fuel + 1, '"' :: cs =>
      match closing? '"' ('"' :: cs) with
      | some (kept, cs) => some (kept, cs)
      | none => do
          let (more, cs) ← basicLines fuel cs
          some ('"' :: more, cs)
  | fuel + 1, '\\' :: cs =>
      match newline? (skipBlanks cs) with
      | some rest => basicLines fuel (skipSpread rest.length rest)
      | none => do
          let (c, cs) ← escape? cs
          let (more, cs) ← basicLines fuel cs
          some (c :: more, cs)
  | fuel + 1, '\r' :: cs =>
      match cs with
      | '\n' :: cs => do
          let (more, cs) ← basicLines fuel cs
          some ('\n' :: more, cs)
      | _ => none
  | fuel + 1, c :: cs =>
      if c == '\n' || inText c then do
        let (more, cs) ← basicLines fuel cs
        some (c :: more, cs)
      else none

/-- Reads a literal text of several lines up to its three apostrophes. -/
def literalLines : List Char → Option (List Char × List Char)
  | [] => none
  | '\'' :: cs =>
      match closing? '\'' ('\'' :: cs) with
      | some (kept, cs) => some (kept, cs)
      | none => do
          let (more, cs) ← literalLines cs
          some ('\'' :: more, cs)
  | '\r' :: '\n' :: cs => do
      let (more, cs) ← literalLines cs
      some ('\n' :: more, cs)
  | c :: cs =>
      if c == '\n' || inText c then do
        let (more, cs) ← literalLines cs
        some (c :: more, cs)
      else none

/-- The rest without a line end right behind the opening of a text of several lines. -/
def skipNewline (cs : List Char) : List Char := (newline? cs).getD cs

/-- Reads a text, which begins with a quotation mark or an apostrophe. -/
def text? : Reader String
  | '"' :: '"' :: '"' :: cs => do
      let (s, cs) ← basicLines (cs.length + 1) (skipNewline cs)
      some (String.ofList s, cs)
  | '"' :: cs => do
      let (s, cs) ← basic (cs.length + 1) cs
      some (String.ofList s, cs)
  | '\'' :: '\'' :: '\'' :: cs => do
      let (s, cs) ← literalLines (skipNewline cs)
      some (String.ofList s, cs)
  | '\'' :: cs => do
      let (s, cs) ← literal cs
      some (String.ofList s, cs)
  | _ => none

/-! ## Keys -/

/-- A character of a key without quotation marks. -/
def isBare (c : Char) : Bool :=
  isDigit c || ('a' ≤ c && c ≤ 'z') || ('A' ≤ c && c ≤ 'Z') || c == '-' || c == '_'

/-- Reads one part of a key, with the blanks around it. -/
def keyPart? (cs : List Char) : Option (String × List Char) :=
  match skipBlanks cs with
  | '"' :: cs => do
      let (s, cs) ← basic (cs.length + 1) cs
      some (String.ofList s, skipBlanks cs)
  | '\'' :: cs => do
      let (s, cs) ← literal cs
      some (String.ofList s, skipBlanks cs)
  | cs =>
      let bare := cs.takeWhile isBare
      if bare.isEmpty then none
      else some (String.ofList bare, skipBlanks (cs.dropWhile isBare))

/-- A key has fewer parts than this. -/
def maxKeyParts : Nat := 80

/-- Reads the parts of a key, with points between them; the number bounds their count. -/
def keyParts? : Nat → Reader (List String)
  | 0, _ => none
  | fuel + 1, cs => do
      let (part, cs) ← keyPart? cs
      match cs with
      | '.' :: cs =>
          let (more, cs) ← keyParts? fuel cs
          some (part :: more, cs)
      | cs => some ([part], cs)

/-- Reads a key: the tables on its way, and its last part. -/
def key? (cs : List Char) : Option ((List String × String) × List Char) := do
  let (parts, cs) ← keyParts? (maxKeyParts - 1) cs
  match parts.reverse with
  | last :: before => some ((before.reverse, last), cs)
  | [] => none

/-! ## Values -/

/-- A character that ends a number, a truth value or a date. -/
def endsScalar (c : Char) : Bool :=
  [' ', '\t', '\n', '\r', '#', ',', ']', '\x7d'].contains c

/-- Reads a number, a truth value or a date. -/
def readScalar : Reader Value := fun cs =>
  let run := cs.takeWhile (!endsScalar ·)
  let rest := cs.dropWhile (!endsScalar ·)
  let alone := (scalar? run).map (·, rest)
  match rest with
  | ' ' :: behind =>
      match withTime? run (behind.takeWhile (!endsScalar ·)) with
      | some text => some (.datetime text, behind.dropWhile (!endsScalar ·))
      | none => alone
  | _ => alone

/-- Reads the items of an array behind its bracket; the number bounds their count. -/
def arrayItems (item : Reader Value) : Nat → Reader (List Value)
  | 0, _ => none
  | fuel + 1, cs => do
      match ← skipLines cs.length cs with
      | ']' :: cs => some ([], cs)
      | cs =>
          let (v, cs) ← item cs
          match ← skipLines cs.length cs with
          | ',' :: cs =>
              let (more, cs) ← arrayItems item fuel cs
              some (v :: more, cs)
          | ']' :: cs => some ([v], cs)
          | _ => none

/-- Reads the assignments of an inline table; the number bounds their count. -/
def inlineMembers (item : Reader Value) : Nat → Members → Reader Members
  | 0, _, _ => none
  | fuel + 1, members, cs => do
      let ((path, key), cs) ← key? cs
      match cs with
      | '=' :: cs =>
          let (v, cs) ← item (skipBlanks cs)
          let members ← assign key v path members
          match skipBlanks cs with
          | ',' :: cs => inlineMembers item fuel members cs
          | '\x7d' :: cs => some (members, cs)
          | _ => none
      | _ => none

/-- How deep arrays and inline tables may be nested. -/
def maxNesting : Nat := 79

/-- Reads a value in which arrays and inline tables are nested at most as deep as the number
says. -/
def readValue : Nat → Reader Value
  | levels, cs =>
      match cs with
      | '"' :: _ => do
          let (s, cs) ← text? cs
          some (.string s, cs)
      | '\'' :: _ => do
          let (s, cs) ← text? cs
          some (.string s, cs)
      | '[' :: cs =>
          match levels with
          | 0 => none
          | levels + 1 => do
              let (items, cs) ← arrayItems (readValue levels) (cs.length + 1) cs
              some (.array items, cs)
      | '\x7b' :: cs =>
          match levels with
          | 0 => none
          | levels + 1 =>
              match skipBlanks cs with
              | '\x7d' :: cs => some (.table [], cs)
              | cs => do
                  let (members, cs) ← inlineMembers (readValue levels) (cs.length + 1) [] cs
                  some (.table (valuesOf members), cs)
      | cs => readScalar cs

/-! ## Documents -/

/-- The document so far: its root table, and the path of the table that assignments go to. -/
structure Document where
  root : Members
  current : List String

/-- Reads a header and opens its table. -/
def header (doc : Document) : List Char → Option (Document × List Char)
  | '[' :: cs => do
      let ((path, key), cs) ← key? cs
      match cs with
      | ']' :: ']' :: cs =>
          let root ← changeAt (addTable key) path doc.root
          some (⟨root, path ++ [key]⟩, ← endLine cs)
      | _ => none
  | cs => do
      let ((path, key), cs) ← key? cs
      match cs with
      | ']' :: cs =>
          let root ← changeAt (openTable key) path doc.root
          some (⟨root, path ++ [key]⟩, ← endLine cs)
      | _ => none

/-- Reads an assignment into the current table. -/
def assignment (doc : Document) (cs : List Char) : Option (Document × List Char) := do
  let ((path, key), cs) ← key? cs
  match cs with
  | '=' :: cs =>
      let (v, cs) ← readValue maxNesting (skipBlanks cs)
      let cs ← endLine cs
      let root ← changeAt (assign key v path) doc.current doc.root
      some ({ doc with root }, cs)
  | _ => none

/-- Reads the lines of a document; the number bounds their count. -/
def readLines : Nat → Document → List Char → Option Document
  | 0, _, _ => none
  | fuel + 1, doc, cs =>
      match skipBlanks cs with
      | [] => some doc
      | '#' :: cs => do readLines fuel doc (← endLine ('#' :: cs))
      | '\n' :: cs => readLines fuel doc cs
      | '\r' :: cs => do readLines fuel doc (← newline? ('\r' :: cs))
      | '[' :: cs => do
          let (doc, cs) ← header doc cs
          readLines fuel doc cs
      | cs => do
          let (doc, cs) ← assignment doc cs
          readLines fuel doc cs

/-- The members of the root table of a document.  A byte order mark in front is ignored. -/
def parse? (s : String) : Option (List (String × Value)) := do
  let cs := match s.toList with
    | c :: cs => if c.toNat == 0xFEFF then cs else c :: cs
    | [] => []
  let doc ← readLines (cs.length + 1) ⟨[], []⟩ cs
  some (valuesOf doc.root)

end PluginHost.Toml
