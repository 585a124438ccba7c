import PluginHost.CommandLine.Help
import PluginHost.Config.Storage
import PluginHost.Plugin.Registry

/-!
# The command line of the host

The host has commands of its own, and one command for each name that its plugins have.
`hostCommand` is the command of the program; `Request.ofInvocation` tells what a command line asks
the host to do.
-/

namespace PluginHost.CommandLine

/-- The version of the program. -/
def programVersion : String := "0.1.0"

/-- The shells that completions can be written for. -/
def shellNames : List String := ["bash", "elvish", "fish", "powershell", "zsh"]

/-- The commands that deal with access tokens. -/
def authCommand : Command where
  name := "auth"
  about := "Manage GitHub access tokens used by 'plugins install'"
  needsSubcommand := true
  subcommands := [
    { name := "add"
      about := "Store an access token under a name"
      arguments := [("NAME", .text)]
      flags := [⟨"token", some 't', "Token value (read from stdin if omitted)", .value .text⟩] },
    { name := "list", about := "List stored token names" },
    { name := "remove", about := "Delete a stored token", arguments := [("NAME", .text)] }]

/-- The command that installs plugins. -/
def installCommand : Command where
  name := "install"
  about := "Install a plugin from a GitHub release or a local file"
  choice := ["url", "file"]
  flags := [
    ⟨"url", some 'u', "The plugin's GitHub repo, as github.com/<owner>/<repo>", .value .text⟩,
    ⟨"token", some 't', "Name of the access token to use for private repos", .value .text⟩,
    ⟨"file", none, "Install from a local archive or executable", .value .path⟩]

/-- The commands that deal with plugins. -/
def pluginsCommand : Command where
  name := "plugins"
  about := "Manage plugins"
  needsSubcommand := true
  subcommands := [
    { name := "list", about := "Show the list of loaded plugins" },
    installCommand,
    { name := "remove", about := "Remove an installed plugin" },
    authCommand]

/-- The commands that deal with the configuration. -/
def configCommand : Command where
  name := "config"
  about := "View or change configuration"
  needsSubcommand := true
  subcommands := [
    { name := "path", about := "Print the config file location" },
    { name := "print", about := "Print the current configuration (tokens masked)" },
    { name := "set", about := "Change a setting", arguments := [("KEY", .text), ("VALUE", .text)] }]

/-- The command that writes completions. -/
def completionsCommand : Command where
  name := "completions"
  about := "Generate shell completions"
  arguments := [("SHELL", .oneOf shellNames)]

/-- The commands of the host itself. -/
def ownCommands : List Command := [pluginsCommand, configCommand, completionsCommand]

/-- The command of a plugin. -/
def commandOf (c : PluginCommand) : Command where
  name := c.name
  about := c.about
  takesAll := true

/-- A command with those of plugins put behind its own. -/
def Command.augmented (c : Command) (registry : Registry) : Command :=
  { c with subcommands :=
      c.subcommands ++ (registry.additions (c.subcommands.map (·.name))).map commandOf }

/-- The command of the program, without those of plugins. -/
def programCommand : Command where
  name := programName
  about := "A command-line host extended at runtime by out-of-process plugin executables"
  flags := [
    ⟨"verbose", some 'v', "Enable verbose logging", .switch⟩,
    ⟨"version", some 'V', "Print version", .version⟩]
  needsSubcommand := true
  subcommands := ownCommands

/-- What the host is asked to do. -/
inductive Request where
  | listPlugins
  | installRelease (url : String) (token : Option String)
  | installFile (path : Path)
  | removePlugin
  | addToken (name : String) (token : Option String)
  | listTokens
  | removeToken (name : String)
  | configPath
  | configPrint
  | configSet (key value : String)
  | completions (shell : String)
  | runPlugin (name : String)
  deriving DecidableEq, Repr

namespace Invocation

/-- The value of a flag. -/
def value? (i : Invocation) (name : String) : Option Bytes :=
  (i.values.find? (·.1 == name)).map (·.2)

/-- The value of a flag as text. -/
def text? (i : Invocation) (name : String) : Option String := (i.value? name).map lossyText

/-- The arguments as texts. -/
def texts (i : Invocation) : List String := i.arguments.map lossyText

end Invocation

/-- What a command line asks for. -/
def Request.ofInvocation (i : Invocation) : Option Request :=
  match i.path, i.texts with
  | ["plugins", "list"], _ => some .listPlugins
  | ["plugins", "install"], _ =>
      match i.value? "file", i.text? "url" with
      | some path, _ => some (.installFile path)
      | none, some url => some (.installRelease url (i.text? "token"))
      | none, none => none
  | ["plugins", "remove"], _ => some .removePlugin
  | ["plugins", "auth", "add"], [name] => some (.addToken name (i.text? "token"))
  | ["plugins", "auth", "list"], _ => some .listTokens
  | ["plugins", "auth", "remove"], [name] => some (.removeToken name)
  | ["config", "path"], _ => some .configPath
  | ["config", "print"], _ => some .configPrint
  | ["config", "set"], [key, value] => some (.configSet key value)
  | ["completions"], [shell] => some (.completions shell)
  | [name], _ => some (.runPlugin name)
  | _, _ => none

end PluginHost.CommandLine
