import PluginHost.Json.Lexer

/-!
# Reading JSON

`readValue` reads any value; `skipValue` passes over one that is not wanted, and is more lenient
about its texts and numbers; `readRecord` reads a record with known fields, from an object or
from an array of its fields in order.  Lists and objects may be nested 127 deep.

Every reader finds the first fault of the text: a record with a field of the wrong kind is
refused at that field, whatever stands behind it.
-/

namespace PluginHost.Json

/-- How deep lists and objects may be nested. -/
def maxNesting : Nat := 127

/-! ## Lists and objects -/

/-- Goes to the next item of a list, or tells that the closing bracket stands next. -/
def nextItem (first : Bool) (cs : List Char) : Except Error (Option (List Char)) :=
  match skipSpace cs with
  | [] => .error .eofInList
  | ']' :: _ => .ok none
  | c :: cs =>
      if first then .ok (some (c :: cs))
      else if c == ',' then
        match skipSpace cs with
        | [] => .error .eofInValue
        | ']' :: _ => .error .trailingComma
        | cs => .ok (some cs)
      else .error .expectedCommaOrBracket

/-- Reads the closing bracket of a list. -/
def endList (cs : List Char) : Except Error (List Char) :=
  match skipSpace cs with
  | [] => .error .eofInList
  | ']' :: cs => .ok cs
  | ',' :: cs =>
      match skipSpace cs with
      | ']' :: _ => .error .trailingComma
      | _ => .error .trailingCharacters
  | _ => .error .trailingCharacters

/-- Reads the key of the next member of an object, or tells that the closing brace stands next. -/
def nextKey (first : Bool) (cs : List Char) : Except Error (Option (String × List Char)) :=
  match skipSpace cs with
  | [] => .error .eofInObject
  | '\x7d' :: _ => .ok none
  | c :: cs =>
      if first then
        if c == '"' then (readString cs).map some else .error .keyMustBeString
      else if c == ',' then
        match skipSpace cs with
        | [] => .error .eofInValue
        | '"' :: cs => (readString cs).map some
        | '\x7d' :: _ => .error .trailingComma
        | _ => .error .keyMustBeString
      else .error .expectedCommaOrBrace

/-- Reads the colon behind a key. -/
def readColon (cs : List Char) : Except Error (List Char) :=
  match skipSpace cs with
  | [] => .error .eofInObject
  | ':' :: cs => .ok cs
  | _ => .error .expectedColon

/-- Reads the closing brace of an object. -/
def endObject (cs : List Char) : Except Error (List Char) :=
  match skipSpace cs with
  | [] => .error .eofInObject
  | '\x7d' :: cs => .ok cs
  | ',' :: _ => .error .trailingComma
  | _ => .error .trailingCharacters

/-- Reads the items of a list up to its end; the number bounds their count. -/
def readItems {α : Type} (item : Reader α) : Nat → Bool → Reader (List α)
  | 0, _, _ => .error .eofInList
  | fuel + 1, first, cs => do
      match ← nextItem first cs with
      | none => pure ([], ← endList cs)
      | some cs =>
          let (a, cs) ← item cs
          let (more, cs) ← readItems item fuel false cs
          pure (a :: more, cs)

/-- Folds the members of an object up to its end; `member` reads a value with its colon. -/
def readMembers {σ : Type} (member : σ → String → Reader σ) : Nat → Bool → σ → Reader σ
  | 0, _, _, _ => .error .eofInObject
  | fuel + 1, first, state, cs => do
      match ← nextKey first cs with
      | none => pure (state, ← endObject cs)
      | some (key, cs) =>
          let (state, cs) ← member state key cs
          readMembers member fuel false state cs

/-! ## Values -/

/-- Reads a value in which lists and objects are nested at most as deep as the number says. -/
def readValue : Nat → Reader Value
  | levels, cs =>
      match skipSpace cs with
      | [] => .error .eofInValue
      | 'n' :: cs => do pure (.null, ← readIdent "ull".toList cs)
      | 't' :: cs => do pure (.bool true, ← readIdent "rue".toList cs)
      | 'f' :: cs => do pure (.bool false, ← readIdent "alse".toList cs)
      | '"' :: cs => do
          let (s, cs) ← readString cs
          pure (.string s, cs)
      | '-' :: cs => do
          let (n, cs) ← readNumber true cs
          pure (.number n, cs)
      | '[' :: cs =>
          match levels with
          | 0 => .error .recursionLimit
          | levels + 1 => do
              let (items, cs) ← readItems (readValue levels) (cs.length + 1) true cs
              pure (.array items, cs)
      | '\x7b' :: cs =>
          match levels with
          | 0 => .error .recursionLimit
          | levels + 1 => do
              let member := fun (members : List (String × Value)) (key : String) (cs : List Char) => do
                let (v, cs) ← readValue levels (← readColon cs)
                pure (insertMember key v members, cs)
              let (members, cs) ← readMembers member (cs.length + 1) true [] cs
              pure (.object members, cs)
      | c :: cs =>
          if Text.isDigit c then do
            let (n, cs) ← readNumber false (c :: cs)
            pure (.number n, cs)
          else .error .expectedValue

/-- What is left to pass over. -/
inductive Skip where
  /-- A value stands next. -/
  | value
  /-- A list (`true`) or object has been opened; `comma` tells that a member stands before. -/
  | inside (list comma : Bool)

/-- Passes over what is left, inside the lists (`true`) and objects that are still open. -/
def skipFrom : Nat → Skip → List Bool → List Char → Except Error (List Char)
  | 0, _, _, _ => .error .eofInValue
  | fuel + 1, .value, enclosing, cs =>
      let behind (cs : List Char) : Except Error (List Char) :=
        match enclosing with
        | [] => .ok cs
        | list :: enclosing => skipFrom fuel (.inside list true) enclosing cs
      match skipSpace cs with
      | [] => .error .eofInValue
      | 'n' :: cs => do behind (← readIdent "ull".toList cs)
      | 't' :: cs => do behind (← readIdent "rue".toList cs)
      | 'f' :: cs => do behind (← readIdent "alse".toList cs)
      | '"' :: cs => do behind (← skipString cs)
      | '-' :: cs => do behind (← skipNumber cs)
      | '[' :: cs => skipFrom fuel (.inside true false) enclosing cs
      | '\x7b' :: cs => skipFrom fuel (.inside false false) enclosing cs
      | c :: cs =>
          if Text.isDigit c then do behind (← skipNumber (c :: cs)) else .error .expectedValue
  | fuel + 1, .inside list comma, enclosing, cs =>
      let closed (cs : List Char) : Except Error (List Char) :=
        match enclosing with
        | [] => .ok cs
        | list :: enclosing => skipFrom fuel (.inside list true) enclosing cs
      let next (cs : List Char) : Except Error (List Char) :=
        if list then skipFrom fuel .value (list :: enclosing) cs
        else
          match skipSpace cs with
          | [] => .error .eofInObject
          | '"' :: cs => do
              let cs ← readColon (← skipString cs)
              skipFrom fuel .value (list :: enclosing) cs
          | _ => .error .keyMustBeString
      match skipSpace cs with
      | [] => .error (if list then .eofInList else .eofInObject)
      | c :: cs =>
          if c == ',' && comma then next cs
          else if (c == ']' && list) || (c == '\x7d' && !list) then closed cs
          else if comma then .error (if list then .expectedCommaOrBracket else .expectedCommaOrBrace)
          else next (c :: cs)

/-- Passes over a value, of any depth. -/
def skipValue (cs : List Char) : Except Error (List Char) :=
  skipFrom (2 * cs.length + 2) .value [] cs

/-- Nothing but blanks may follow. -/
def endOfText {α : Type} (result : α × List Char) : Except Error α :=
  match skipSpace result.2 with
  | [] => .ok result.1
  | _ => .error .trailingCharacters

/-- The value of a whole text. -/
def parse (s : String) : Except Error Value :=
  readValue maxNesting s.toList >>= endOfText

/-! ## Scalars of a wanted kind -/

/-- The cause for refusing the value that stands next, where another kind is expected. -/
def refuse {α : Type} (expected : String) (cs : List Char) : Except Error α :=
  let found (f : Found) : Except Error α := .error (.invalidType f expected)
  match skipSpace cs with
  | [] => .error .eofInValue
  | 'n' :: cs => do let _ ← readIdent "ull".toList cs; found .null
  | 't' :: cs => do let _ ← readIdent "rue".toList cs; found (.boolean true)
  | 'f' :: cs => do let _ ← readIdent "alse".toList cs; found (.boolean false)
  | '"' :: cs => do let (s, _) ← readString cs; found (.text s)
  | '-' :: cs => do let (n, _) ← readNumber true cs; found (Value.number n).found
  | '[' :: _ => found .sequence
  | '\x7b' :: _ => found .map
  | c :: cs =>
      if Text.isDigit c then do
        let (n, _) ← readNumber false (c :: cs)
        found (Value.number n).found
      else .error .expectedValue

/-- Reads a text. -/
def readText : Reader String := fun cs =>
  match skipSpace cs with
  | '"' :: cs => readString cs
  | cs => refuse "a string" cs

/-- A whole number between two bounds. -/
def boundedInteger (low high : Int) (kind : String) (n : Number) : Except Error Int :=
  match n with
  | .integer i =>
      if low ≤ i && i ≤ high then .ok i else .error (.invalidValue (.integer i) kind)
  | .fraction x => .error (.invalidType (.floating x) kind)

/-- Reads a whole number between two bounds; `kind` names the numbers within them. -/
def readInteger (low high : Int) (kind : String) : Reader Int := fun cs =>
  match skipSpace cs with
  | '-' :: cs => do
      let (n, cs) ← readNumber true cs
      pure (← boundedInteger low high kind n, cs)
  | [] => .error .eofInValue
  | c :: cs =>
      if Text.isDigit c then do
        let (n, cs) ← readNumber false (c :: cs)
        pure (← boundedInteger low high kind n, cs)
      else refuse kind (c :: cs)

/-- Reads a value that may be null. -/
def readOptional {α : Type} (read : Reader α) : Reader (Option α) := fun cs =>
  match skipSpace cs with
  | 'n' :: cs => do pure (none, ← readIdent "ull".toList cs)
  | cs => do
      let (a, cs) ← read cs
      pure (some a, cs)

/-- Reads a list. -/
def readList {α : Type} (levels : Nat) (item : Nat → Reader α) : Reader (List α) := fun cs =>
  match skipSpace cs with
  | '[' :: cs =>
      match levels with
      | 0 => .error .recursionLimit
      | levels + 1 => readItems (item levels) (cs.length + 1) true cs
  | cs => refuse "a sequence" cs

/-! ## Records -/

/-- One field of a record: its name, whether a list of the fields may end before it, whether it
has been read already, and how its value is put into the record. -/
structure Field (σ : Type) where
  name : String
  optional : Bool
  given : σ → Bool
  read : Nat → σ → Reader σ

/-- A kind of record. -/
structure Record (σ : Type) where
  name : String
  fields : List (Field σ)

/-- Reads the value of a member, with its colon, into the record. -/
def Record.readMember {σ : Type} (record : Record σ) (levels : Nat) (state : σ) (key : String) :
    Reader σ := fun cs =>
  match record.fields.find? (·.name == key) with
  | some field =>
      if field.given state then .error (.duplicateField key)
      else do field.read levels state (← readColon cs)
  | none => do pure (state, ← skipValue (← readColon cs))

/-- What a record is called where it is expected. -/
def Record.kind {σ : Type} (record : Record σ) : String := "struct " ++ record.name

/-- What a list of the fields is called where it is expected. -/
def Record.kindOfList {σ : Type} (record : Record σ) : String :=
  let plural := if record.fields.length == 1 then "element" else "elements"
  "struct " ++ record.name ++ s!" with {record.fields.length} " ++ plural

/-- Reads the fields of a record from a list, in order. -/
def Record.readFields {σ : Type} (record : Record σ) (levels : Nat) :
    List (Field σ) → Nat → σ → Reader σ
  | [], _, state, cs => .ok (state, cs)
  | field :: fields, index, state, cs => do
      match ← nextItem (index == 0) cs with
      | none =>
          if field.optional then record.readFields levels fields index state cs
          else throw (.invalidLength index record.kindOfList)
      | some cs =>
          let (state, cs) ← field.read levels state cs
          record.readFields levels fields (index + 1) state cs

/-- Reads a record: an object with its fields in any order, or a list with its fields in order. -/
def Record.read {σ : Type} (record : Record σ) (levels : Nat) (empty : σ) : Reader σ := fun cs =>
  match skipSpace cs with
  | [] => .error .eofInValue
  | '[' :: cs =>
      match levels with
      | 0 => .error .recursionLimit
      | levels + 1 => do
          let (state, cs) ← record.readFields levels record.fields 0 empty cs
          pure (state, ← endList cs)
  | '\x7b' :: cs =>
      match levels with
      | 0 => .error .recursionLimit
      | levels + 1 => readMembers (record.readMember levels) (cs.length + 1) true empty cs
  | cs => refuse record.kind cs

/-- A field that must be there. -/
def required {α : Type} (name : String) (value : Option α) : Except Error α :=
  match value with
  | some a => .ok a
  | none => .error (.missingField name)

end PluginHost.Json
