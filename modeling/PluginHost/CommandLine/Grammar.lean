import PluginHost.Bytes

/-!
# Command lines

A command has flags, arguments and sub-commands (`Command`).  A command line is read from left to
right (`Command.parse`): a word that names a sub-command leads into it, flags stand before the
arguments or between them, and behind two hyphens everything is an argument.  Some commands take
all that stands behind their name as it is.  Reading ends at the first fault, and also at the first
flag that asks for help or for the version.
-/

namespace PluginHost.CommandLine

/-- Which values an argument may have. -/
inductive ValueKind where
  /-- Any text. -/
  | text
  /-- Any bytes, but at least one. -/
  | path
  /-- One of several words. -/
  | oneOf (words : List String)
  deriving DecidableEq, Repr

/-- What a flag is for. -/
inductive FlagUse where
  | switch
  | help
  | version
  | value (kind : ValueKind)
  deriving DecidableEq, Repr

/-- A flag, which is written as two hyphens and its name, or as a hyphen and its letter. -/
structure Flag where
  name : String
  letter : Option Char := none
  about : String := ""
  use : FlagUse
  deriving DecidableEq, Repr

/-- A command. -/
structure Command where
  name : String
  about : String := ""
  flags : List Flag := []
  /-- The arguments that have to be given, with their names. -/
  arguments : List (String × ValueKind) := []
  /-- All that stands behind the name of the command is taken as it is. -/
  takesAll : Bool := false
  /-- Flags of which exactly one has to be given, if there are any. -/
  choice : List String := []
  /-- A sub-command has to be given. -/
  needsSubcommand : Bool := false
  subcommands : List Command := []

/-- What is wrong with a command line. -/
inductive UsageError where
  | unknownArgument
  | invalidSubcommand
  | tooManyValues
  | conflict
  | invalidValue
  | invalidText
  | missingArgument
  | missingSubcommand
  deriving DecidableEq, Repr

/-- Why a command line asks for no command. -/
inductive Refusal where
  /-- It asks for help on the command of these names. -/
  | help (path : List String) (command : Command)
  | version
  | usage (error : UsageError)

/-- What a command line says: the names of the commands that lead to the innermost one, and the
flags, values and arguments of that one. -/
structure Invocation where
  path : List String := []
  switches : List String := []
  values : List (String × Bytes) := []
  arguments : List Bytes := []
  deriving DecidableEq, Repr

/-- The flag that asks for help. -/
def helpFlag : Flag := ⟨"help", some 'h', "Print help", .help⟩

/-- The command that asks for help. -/
def helpCommand : Command where
  name := "help"
  about := "Print this message or the help of the given subcommand(s)"

/-- Fails on a fault. -/
def reject {α : Type} (e : UsageError) : Except Refusal α := .error (.usage e)

/-- What is wrong with a value. -/
def ValueKind.fault (kind : ValueKind) (value : Bytes) : Option UsageError :=
  match kind with
  | .text => if (text? value).isSome then none else some .invalidText
  | .path => if value.isEmpty then some .invalidValue else none
  | .oneOf words => if words.any (utf8 · == value) then none else some .invalidValue

/-- What is wrong with the value of an argument or a flag, as a failure. -/
def ValueKind.check (kind : ValueKind) (value : Bytes) : Except Refusal Unit :=
  match kind.fault value with
  | some e => reject e
  | none => .ok ()

namespace Command

/-- The sub-command of a name. -/
def find? (c : Command) (name : Bytes) : Option Command :=
  c.subcommands.find? fun d => utf8 d.name == name

/-- The flags of a command, with the one that asks for help. -/
def allFlags (c : Command) : List Flag := c.flags ++ [helpFlag]

/-- The flag of a name. -/
def flagNamed? (c : Command) (name : String) : Option Flag := c.allFlags.find? (·.name == name)

/-- The flag of a letter. -/
def flagLettered? (c : Command) (letter : UInt8) : Option Flag :=
  c.allFlags.find? fun flag => flag.letter.any (·.toNat == letter.toNat)

/-- A word is the name of the command that asks for help. -/
def isHelpName (c : Command) (word : Bytes) : Bool :=
  word == utf8 helpCommand.name && !c.subcommands.isEmpty

/-- The command that words lead to, each naming a sub-command of the one before. -/
def follow (c : Command) (path : List String) : List Bytes → Option (List String × Command)
  | [] => some (path, c)
  | word :: rest =>
      if c.isHelpName word then
        if rest.isEmpty then some (path ++ [helpCommand.name], helpCommand) else none
      else
        match c.find? word with
        | some d => d.follow (path ++ [d.name]) rest
        | none => none

end Command

/-- The state of reading: the innermost command, what has been said to it, the flag that waits for
its value, and whether flags are no longer looked for. -/
structure Reading where
  command : Command
  said : Invocation := {}
  waiting : Option (String × ValueKind) := none
  isRaw : Bool := false

namespace Reading

/-- A value is given for a flag. -/
def putValue (r : Reading) (name : String) (kind : ValueKind) (value : Bytes) :
    Except Refusal Reading := do
  kind.check value
  if r.said.values.any (·.1 == name) then reject .conflict
  else
    pure { r with
      said := { r.said with values := r.said.values ++ [(name, value)] }, waiting := none }

/-- A flag is given without a value. -/
def putFlag (r : Reading) (flag : Flag) : Except Refusal Reading :=
  match flag.use with
  | .help => .error (.help r.said.path r.command)
  | .version => .error .version
  | .switch =>
      if r.said.switches.contains flag.name then reject .conflict
      else .ok { r with said := { r.said with switches := r.said.switches ++ [flag.name] } }
  | .value kind => .ok { r with waiting := some (flag.name, kind) }

/-- What is wrong with a word that is neither a flag nor a sub-command nor a further argument. -/
def strayError (r : Reading) (word : Bytes) : UsageError :=
  if r.isRaw && (r.command.find? word).isSome then .unknownArgument
  else if r.command.subcommands.isEmpty then .unknownArgument
  else .invalidSubcommand

/-- An argument is given. -/
def putArgument (r : Reading) (value : Bytes) : Except Refusal Reading :=
  match r.command.arguments[r.said.arguments.length]? with
  | none => reject (r.strayError value)
  | some (_, kind) => do
      kind.check value
      pure { r with said := { r.said with arguments := r.said.arguments ++ [value] } }

/-- The name of a flag, and the value that is given with it. -/
def splitValue (word : Bytes) : Bytes × Option Bytes :=
  match word.dropWhile (· != 61) with
  | _ :: value => (word.takeWhile (· != 61), some value)
  | [] => (word, none)

/-- A flag is given by its name. -/
def putNamed (r : Reading) (word : Bytes) : Except Refusal Reading :=
  let (name, value) := splitValue word
  match (text? name).bind r.command.flagNamed?, value with
  | none, _ => reject .unknownArgument
  | some flag, none => r.putFlag flag
  | some flag, some value =>
      match flag.use with
      | .value kind => r.putValue flag.name kind value
      | _ => reject .tooManyValues

/-- Flags are given by their letters.  What stands behind a letter whose flag takes a value is that
value, with or without an equals sign in front. -/
def putLetters (r : Reading) : Bytes → Except Refusal Reading
  | [] => .ok r
  | b :: rest =>
      match r.command.flagLettered? b with
      | none => reject .unknownArgument
      | some flag =>
          match flag.use, rest with
          | .value kind, 61 :: value => r.putValue flag.name kind value
          | .value kind, b :: more => r.putValue flag.name kind (b :: more)
          | _, _ =>
              match r.putFlag flag with
              | .ok r => r.putLetters rest
              | .error e => .error e

/-- What is missing at the end of a command line. -/
def missing (r : Reading) : Option UsageError :=
  let chosen := r.command.choice.filter fun name => r.said.values.any (·.1 == name)
  if r.waiting.isSome then some .invalidValue
  else if r.command.needsSubcommand then some .missingSubcommand
  else if chosen.length > 1 then some .conflict
  else if chosen.isEmpty && !r.command.choice.isEmpty then some .missingArgument
  else if r.said.arguments.length < r.command.arguments.length then some .missingArgument
  else none

/-- What is handed on to a command that takes everything.  Two hyphens at the start are left out,
and a flag at the start has to have a name that is text. -/
def handedOn : List Bytes → Except Refusal (List Bytes)
  | [45, 45] :: rest => .ok rest
  | (45 :: 45 :: word) :: rest =>
      if (text? (splitValue word).1).isSome then .ok ((45 :: 45 :: word) :: rest)
      else reject .unknownArgument
  | words => .ok words

/-- Reads the words that are left of a command line. -/
def readAll (r : Reading) : List Bytes → Except Refusal Invocation
  | [] =>
      match r.missing with
      | some e => reject e
      | none => .ok r.said
  | word :: rest => do
      if r.isRaw then (← r.putArgument word).readAll rest
      else
        match r.waiting, word with
        | some _, 45 :: _ :: _ => reject .invalidValue
        | some (name, kind), _ => (← r.putValue name kind word).readAll rest
        | none, _ =>
            match r.command.find? word with
            | some c =>
                let path := r.said.path ++ [c.name]
                if c.takesAll then pure { path, arguments := ← handedOn rest }
                else ({ command := c, said := { path } } : Reading).readAll rest
            | none =>
                if r.command.isHelpName word then
                  match r.command.follow r.said.path rest with
                  | some (path, c) => .error (.help path c)
                  | none => reject .invalidSubcommand
                else
                  match word with
                  | [45, 45] => ({ r with isRaw := true } : Reading).readAll rest
                  | 45 :: 45 :: named => (← r.putNamed named).readAll rest
                  | 45 :: b :: letters => (← r.putLetters (b :: letters)).readAll rest
                  | word => (← r.putArgument word).readAll rest

end Reading

/-- Reads a command line, in which the name of the program is left out. -/
def Command.parse (c : Command) (words : List Bytes) : Except Refusal Invocation :=
  ({ command := c } : Reading).readAll words

end PluginHost.CommandLine
