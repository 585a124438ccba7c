import PluginHost.Plugin.Descriptor
import PluginHost.Plugin.Directory
import PluginHost.Children.Supervise

/-!
# Loading plugins

A plugin is loaded by starting its file, waiting for its handshake, connecting to it and asking it
to describe itself (`load`).  If any of this fails, its process is ended.  `loadAll` loads what
stands in a directory; a plugin that fails is told in the log and left out, and does not keep the
others from being loaded.
-/

namespace PluginHost

open Children Rpc

/-- How plugins are loaded. -/
structure LoadOptions where
  /-- The arguments that every plugin is given. -/
  args : List Bytes := []
  /-- How long a handshake may take. -/
  handshakeLimit : Duration := ⟨60, 0⟩
  /-- How long an answer may take. -/
  answerLimit : Option Duration := none
  offer : Offer := hostOffer

/-- An argument that is text and starts with a hyphen. -/
def isHostFlag (arg : Bytes) : Bool := (text? arg).isSome && arg.head? == some 45

/-- The arguments that are passed on to plugins: those behind the name of the command, in front of
which only flags of the host stand. -/
def forwardedArgs (args : List Bytes) : List Bytes := (args.dropWhile isHostFlag).drop 1

/-- A plugin that has described itself, with its process and the client that reaches it. -/
structure LoadedPlugin where
  descriptor : Descriptor
  process : PluginProcess
  client : Client
  /-- The child that answers the client. -/
  server : Nat

/-- The plugins of a host, in the order in which they were loaded. -/
abbrev PluginSet := List LoadedPlugin

/-- A record of the loader. -/
def loaderRecord (level : LogLevel) (message : String) : LogRecord := ⟨level, .loader, message⟩

/-- What is told of a plugin that listens. -/
def listeningRecord (path : Path) (line : HandshakeLine) : LogRecord :=
  loaderRecord .debug ("Plugin " ++ Path.display path ++ " listening on " ++ line.transport.name
    ++ " " ++ line.address ++ s!" (protocol v{line.version})")

/-- The last name of a path, or the whole path if it has none. -/
def fileText (path : Path) : String := Path.display ((Path.fileName path).getD path)

/-- What is told of a plugin that is loaded. -/
def loadedRecord (path : Path) (d : Descriptor) : LogRecord :=
  loaderRecord .debug ("Loaded plugin " ++ d.name ++ " v" ++ d.version ++ " from " ++ fileText path)

/-- What is told of a plugin that cannot be loaded. -/
def failedRecord (path : Path) (error : PluginError) : LogRecord :=
  loaderRecord .warn ("Failed to load plugin " ++ fileText path ++ ": " ++ error.message)

namespace LoadedPlugin

/-- Reaches a started plugin and lets it describe itself. -/
def describe (options : LoadOptions) (process : PluginProcess) : Step PluginError LoadedPlugin := do
  let line ← awaitHandshake process options.handshakeLimit options.offer
  Step.note (listeningRecord process.path line)
  let (server, client) ← (connect line options.answerLimit).wrapped .rpc
  let (described, client) ← performCall server client Client.describe
  match described with
  | .error e => Step.fail (.rpc e)
  | .ok info => pure { descriptor := .ofInfo info process.path, process, client, server }

/-- Loads the plugin in a file. -/
def load (options : LoadOptions) (path : Path) : Step PluginError LoadedPlugin := do
  let process ← spawn path options.args options.offer
  match ← (describe options process).attempt with
  | .ok plugin => pure plugin
  | .error e =>
      let _ ← terminate process
      Step.fail e

/-- Lets a plugin do its work. -/
def run {ε : Type} (p : LoadedPlugin) : Step ε (Except RpcError Unit × LoadedPlugin) := do
  Step.note (loaderRecord .debug ("Running plugin " ++ p.descriptor.name))
  let (result, client) ← performCall p.server p.client Client.run
  pure (result, { p with client })

/-- Ends the process of a plugin. -/
def terminate {ε : Type} (p : LoadedPlugin) : Step ε LoadedPlugin := do
  let process ← Children.terminate p.process
  pure { p with process }

/-- The text of a loaded plugin in a report. -/
def report (p : LoadedPlugin) (pid : String) : String :=
  "LoadedPlugin \x7b descriptor: PluginDescriptor \x7b name: " ++ Text.quoted p.descriptor.name
    ++ ", description: " ++ Text.quoted p.descriptor.description
    ++ ", version: " ++ Text.quoted p.descriptor.version
    ++ ", path: " ++ Text.quotedPath p.descriptor.path ++ " \x7d, process: Some("
    ++ p.process.report pid ++ ") \x7d"

end LoadedPlugin

namespace PluginSet

/-- Loads the plugins in files.  One that fails is left out. -/
def loadEach {ε : Type} (options : LoadOptions) : List Path → Step ε PluginSet
  | [] => pure []
  | path :: rest => do
      match ← (LoadedPlugin.load options path).attempt with
      | .ok plugin =>
          Step.note (loadedRecord path plugin.descriptor)
          let others ← loadEach options rest
          pure (plugin :: others)
      | .error e =>
          Step.note (failedRecord path e)
          loadEach options rest

/-- Loads the plugins in a directory. -/
def loadAll (options : LoadOptions) (directory : Path) : Step PluginError PluginSet := do
  let paths ← Step.onWorld (Task.onFiles ((pluginFiles directory).wrapped .io))
  loadEach options paths

/-- Lets the plugin at a place do its work, if there is one. -/
def runAt {ε : Type} (place : Nat) (plugins : PluginSet) :
    Step ε (Option (Except RpcError Unit) × PluginSet) :=
  match plugins[place]? with
  | none => pure (none, plugins)
  | some plugin => do
      let (result, plugin) ← plugin.run
      pure (some result, plugins.set place plugin)

/-- Ends the process of the plugin at a place, if there is one. -/
def terminateAt {ε : Type} (place : Nat) (plugins : PluginSet) : Step ε PluginSet :=
  match plugins[place]? with
  | none => pure plugins
  | some plugin => do
      let plugin ← plugin.terminate
      pure (plugins.set place plugin)

/-- Ends the processes of all plugins. -/
def terminate {ε : Type} (plugins : PluginSet) : Step ε PluginSet :=
  plugins.mapM LoadedPlugin.terminate

/-- How the plugins describe themselves. -/
def descriptors (plugins : PluginSet) : List Descriptor := plugins.map (·.descriptor)

end PluginSet

end PluginHost
