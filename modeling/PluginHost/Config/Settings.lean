import PluginHost.Duration
import PluginHost.FileTree
import PluginHost.Json.Value
import PluginHost.Text.Lowercase

/-!
# The configuration

Three groups of settings: the log, the plugins, and the access tokens by name.  `Config.set`
changes a setting from its text, `Config.masked` hides the tokens for display.  The file of the
configuration is read and written in `PluginHost.Config.Document` and `PluginHost.Config.Storage`.
-/

namespace PluginHost

open Text

/-- How log lines are written. -/
inductive LogFormat where
  | text
  | json
  deriving DecidableEq, Repr

/-- The name of a log format. -/
def LogFormat.name : LogFormat → String
  | .text => "text"
  | .json => "json"

/-- The configuration.  The tokens are ordered by name, with one token per name. -/
structure Config where
  /-- The least level that is logged. -/
  level : String
  format : LogFormat
  /-- Where the plugins are, unless they are below the configuration directory. -/
  directory : Option String
  /-- The seconds a plugin has for its handshake. -/
  handshakeSeconds : Nat
  /-- The seconds a call may take; without a limit it may take forever. -/
  runSeconds : Option Nat
  tokens : List (String × String)
  deriving DecidableEq, Repr

/-- Why the configuration cannot be read, changed or saved. -/
inductive ConfigError where
  | noConfigDir
  | read (path : Path) (cause : IoError)
  | parse (path : Path)
  | serialize
  | unknownKey (key : String)
  | invalidValue (key value reason : String)
  | io (cause : IoError)
  deriving DecidableEq, Repr

/-- The wording of each cause. -/
def ConfigError.message : ConfigError → String
  | .noConfigDir => "Could not determine config directory"
  | .read path cause => "Failed to read " ++ Path.display path ++ ": " ++ cause.message
  | .parse path => "Invalid config file " ++ Path.display path
  | .serialize => "Failed to serialize config"
  | .unknownKey key => "Unknown config key '" ++ key ++ "'"
  | .invalidValue key value reason =>
      "Invalid value '" ++ value ++ "' for " ++ key ++ ": " ++ reason
  | .io cause => "IO error: " ++ cause.message

namespace Config

/-- The settings that hold where nothing is set. -/
def default : Config where
  level := "warn"
  format := .text
  directory := none
  handshakeSeconds := 60
  runSeconds := none
  tokens := []

/-- The names of the log levels. -/
def levels : List String := ["trace", "debug", "info", "warn", "error"]

/-- The settings that can be changed from a text. -/
inductive Key where
  | level
  | format
  | directory
  | handshakeSeconds
  | runSeconds
  deriving DecidableEq, Repr

/-- The name of a setting. -/
def Key.name : Key → String
  | .level => "logging.level"
  | .format => "logging.format"
  | .directory => "plugins.directory"
  | .handshakeSeconds => "plugins.handshake_timeout_secs"
  | .runSeconds => "plugins.run_timeout_secs"

/-- All settings that can be changed from a text. -/
def Key.all : List Key := [.level, .format, .directory, .handshakeSeconds, .runSeconds]

/-- The setting of a name. -/
def Key.ofName? (name : String) : Option Key := Key.all.find? (·.name == name)

/-- Changes a setting, or says what was expected. -/
def setKey (c : Config) (key : Key) (value : String) : Except String Config :=
  match key with
  | .level =>
      let level := lowercase value
      if levels.contains level then .ok { c with level := level }
      else .error ("expected one of " ++ ", ".intercalate levels)
  | .format =>
      let name := lowercase value
      if name == LogFormat.text.name then .ok { c with format := .text }
      else if name == LogFormat.json.name then .ok { c with format := .json }
      else .error "expected 'text' or 'json'"
  | .directory => .ok { c with directory := if value.isEmpty then none else some value }
  | .handshakeSeconds =>
      match readNat maxUInt64 value.toList with
      | none => .error "expected whole seconds"
      | some 0 => .error "must be greater than zero"
      | some seconds => .ok { c with handshakeSeconds := seconds }
  | .runSeconds =>
      if value == "" || value == "none" then .ok { c with runSeconds := none }
      else
        match readNat maxUInt64 value.toList with
        | none => .error "expected whole seconds or 'none'"
        | some seconds => .ok { c with runSeconds := some seconds }

/-- Changes the setting of a name from a text. -/
def set (c : Config) (name value : String) : Except ConfigError Config :=
  match Key.ofName? name with
  | none => .error (.unknownKey name)
  | some key =>
      match c.setKey key value with
      | .ok c => .ok c
      | .error reason => .error (.invalidValue name value reason)

/-- The limit for a handshake. -/
def handshakeTimeout (c : Config) : Duration := ⟨c.handshakeSeconds, 0⟩

/-- The limit for a call. -/
def runTimeout (c : Config) : Option Duration := c.runSeconds.map (⟨·, 0⟩)

/-! ## Tokens -/

/-- The token of a name. -/
def token? (c : Config) (name : String) : Option String := Json.member? name c.tokens

/-- Puts a token under a name. -/
def putToken (c : Config) (name value : String) : Config :=
  { c with tokens := Json.insertMember name value c.tokens }

/-- Drops the token of a name. -/
def dropToken (c : Config) (name : String) : Config :=
  { c with tokens := c.tokens.filter (·.1 != name) }

/-- A token as it is shown: stars, and of a long one the last four characters. -/
def mask (token : String) : String :=
  let cs := token.toList
  let hidden := if cs.length ≤ 8 then cs.length else cs.length - 4
  String.ofList (List.replicate hidden '*' ++ cs.drop hidden)

/-- The configuration with its tokens hidden. -/
def masked (c : Config) : Config :=
  { c with tokens := c.tokens.map fun (name, value) => (name, mask value) }

end Config

end PluginHost
