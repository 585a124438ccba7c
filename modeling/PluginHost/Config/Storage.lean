import PluginHost.Config.Document

/-!
# Where the configuration is kept

The configuration directory comes from the environment.  In it lies the file of the configuration,
and the plugins are below it unless the configuration says otherwise.  `Config.load` and
`Config.save` are the two ways between the file and the settings.
-/

namespace PluginHost

/-- The variables of a process. -/
abbrev Environment := List (String × Bytes)

/-- The variable that names the configuration directory. -/
def configDirectoryVariable : String := "SPRIG_CONFIG_DIR"

/-- The name of this program. -/
def programName : String := "sprig"

namespace Environment

/-- A variable that is set and not empty. -/
def nonempty? (env : Environment) (name : String) : Option Bytes :=
  match env.lookup name with
  | some value => if value.isEmpty then none else some value
  | none => none

/-- The home directory. -/
def home? (env : Environment) : Option Path := env.nonempty? "HOME"

/-- The directory for the configurations of all programs. -/
def configHome? (env : Environment) : Option Path :=
  match env.lookup "XDG_CONFIG_HOME" with
  | some dir =>
      if Path.isAbsolute dir then some dir else env.home?.map (Path.join · (utf8 ".config"))
  | none => env.home?.map (Path.join · (utf8 ".config"))

end Environment

namespace Config

/-- The configuration directory. -/
def directoryOf (env : Environment) : Except ConfigError Path :=
  match env.nonempty? configDirectoryVariable with
  | some dir => .ok dir
  | none =>
      match env.configHome? with
      | some dir => .ok (Path.join dir (utf8 programName))
      | none => .error .noConfigDir

/-- The file of the configuration. -/
def fileIn (dir : Path) : Path := Path.join dir (utf8 "config.toml")

/-- A path in which a leading tilde stands for the home directory. -/
def expandTilde (env : Environment) (text : String) : String :=
  match text.toList with
  | '~' :: rest =>
      if rest.isEmpty || rest.head? == some '/' then
        match env.home?.bind text? with
        | some home => home ++ String.ofList rest
        | none => text
      else text
  | _ => text

/-- The directory of the plugins. -/
def pluginsIn (c : Config) (env : Environment) (dir : Path) : Path :=
  match c.directory with
  | some text => utf8 (expandTilde env text)
  | none => Path.join dir (utf8 "plugins")

/-- Reads the configuration from a directory.  Without a file everything has its default. -/
def load (t : FileTree) (dir : Path) : Except ConfigError Config :=
  let path := fileIn dir
  if !t.isThere path then .ok default
  else
    match t.read path with
    | .error e => .error (.read path e)
    | .ok data =>
        match text? data with
        | none => .error (.read path .invalidText)
        | some text =>
            match ofDocument? text with
            | some c => .ok c
            | none => .error (.parse path)

/-- Writes the configuration into a directory, which is made if it is missing. -/
def save (c : Config) (t : FileTree) (dir : Path) : Except ConfigError Path × FileTree :=
  match t.makeDirectories dir with
  | (.error e, t) => (.error (.io e), t)
  | (.ok (), t) =>
      match c.document? with
      | none => (.error .serialize, t)
      | some text =>
          match t.write (fileIn dir) (utf8 text) with
          | .error e => (.error (.io e), t)
          | .ok t => (.ok (fileIn dir), t)

end Config

end PluginHost
