import PluginHost.Config.Settings
import PluginHost.Toml.Writer

/-!
# The document of the configuration

The configuration as a TOML document.  `Config.document` writes it, unless a number is too large
for the format.  `Config.ofDocument?` reads a document: what is missing has its default, what is
unknown is passed over, and a group may also be a list of its settings in order.
-/

namespace PluginHost.Config

open Toml

/-! ## Reading -/

/-- The name of the only member of a date or time, where a table is expected. -/
def datetimeMember : String := "$__toml_private_datetime"

/-- The settings of a group, by name or in order. -/
inductive Group where
  | named (members : List (String × Value))
  | listed (items : List Value)

/-- The group that a value holds. -/
def Group.ofValue? : Value → Option Group
  | .table members => some (.named members)
  | .array items => some (.listed items)
  | .datetime text => some (.named [(datetimeMember, .string text)])
  | _ => none

/-- A setting of a group, by its name or its place, with a default for a missing one. -/
def Group.get {α : Type} (group : Group) (name : String) (place : Nat) (missing : α)
    (read : Value → Option α) : Option α :=
  let value := match group with
    | .named members => members.lookup name
    | .listed items => items[place]?
  match value with
  | none => some missing
  | some v => read v

/-- A text. -/
def textOf? : Value → Option String
  | .string s => some s
  | _ => none

/-- A whole number that is not negative. -/
def natOf? : Value → Option Nat
  | .integer i => if 0 ≤ i then some i.toNat else none
  | _ => none

/-- The log format of a name. -/
def formatNamed? (name : String) : Option LogFormat :=
  if name == LogFormat.text.name then some .text
  else if name == LogFormat.json.name then some .json
  else none

/-- A value that holds nothing. -/
def isEmptyValue : Value → Bool
  | .array items => items.isEmpty
  | .table members => members.isEmpty
  | _ => false

/-- The log format: its name, or a table with nothing but an empty value under its name. -/
def formatOf? : Value → Option LogFormat
  | .string name => formatNamed? name
  | .table [(name, v)] => if isEmptyValue v then formatNamed? name else none
  | _ => none

/-- All members as texts. -/
def textsOf? : List (String × Value) → Option (List (String × String))
  | [] => some []
  | (name, v) :: rest => do
      let value ← textOf? v
      return (name, value) :: (← textsOf? rest)

/-- The tokens of a table. -/
def tokensOf? (v : Value) : Option (List (String × String)) :=
  match Group.ofValue? v with
  | some (.named members) => (textsOf? members).map Json.membersOf
  | _ => none

/-- Reads a group of settings into the configuration. -/
def readGroup (read : Group → Config → Option Config) (c : Config) (v : Value) : Option Config := do
  read (← Group.ofValue? v) c

/-- Reads the settings of the log. -/
def readLogging (group : Group) (c : Config) : Option Config := do
  let level ← group.get "level" 0 c.level textOf?
  let format ← group.get "format" 1 c.format formatOf?
  return { c with level := level, format := format }

/-- Reads the settings of the plugins. -/
def readPlugins (group : Group) (c : Config) : Option Config := do
  let directory ← group.get "directory" 0 c.directory fun v => (textOf? v).map some
  let handshake ← group.get "handshake_timeout_secs" 1 c.handshakeSeconds natOf?
  let run ← group.get "run_timeout_secs" 2 c.runSeconds fun v => (natOf? v).map some
  return { c with directory := directory, handshakeSeconds := handshake, runSeconds := run }

/-- Reads the tokens. -/
def readTokens (group : Group) (c : Config) : Option Config := do
  return { c with tokens := ← group.get "tokens" 0 c.tokens tokensOf? }

/-- The configuration that the members of a document give. -/
def ofMembers? (members : List (String × Value)) : Option Config := do
  let document := Group.named members
  let c ← document.get "logging" 0 default (readGroup readLogging default)
  let c ← document.get "plugins" 1 c (readGroup readPlugins c)
  document.get "github" 2 c (readGroup readTokens c)

/-- The configuration that a document gives. -/
def ofDocument? (text : String) : Option Config := do
  ofMembers? (← Toml.parse? text)

/-! ## Writing -/

/-- A number as a value. -/
def natForm (n : Nat) : List Char := (toString n).toList

/-- The lines of the document. -/
def documentChars (c : Config) : List Char :=
  headerLine ["logging"]
    ++ assignmentLine "level" (stringForm c.level.toList)
    ++ assignmentLine "format" (stringForm c.format.name.toList)
    ++ ['\n']
    ++ headerLine ["plugins"]
    ++ (c.directory.map fun d => assignmentLine "directory" (stringForm d.toList)).getD []
    ++ assignmentLine "handshake_timeout_secs" (natForm c.handshakeSeconds)
    ++ (c.runSeconds.map fun n => assignmentLine "run_timeout_secs" (natForm n)).getD []
    ++ ['\n']
    ++ headerLine ["github", "tokens"]
    ++ c.tokens.flatMap fun (name, value) => assignmentLine name (stringForm value.toList)

/-- All numbers fit into the numbers of a document. -/
def isWritable (c : Config) : Bool :=
  c.handshakeSeconds ≤ Text.maxInt64 && c.runSeconds.all (· ≤ Text.maxInt64)

/-- The document of the configuration, if its numbers can be written. -/
def document? (c : Config) : Option String :=
  if c.isWritable then some (String.ofList c.documentChars) else none

end PluginHost.Config
