import PluginHost.Plugin.Loading

/-!
# The commands of plugins

Every loaded plugin becomes a command that bears its name.  A name that belongs to the host is
refused.  A name that several plugins bear belongs to the one that was registered last
(`Registry.resolve`); `Registry.effective` lists what the names resolve to, in the order in which
the names were first seen.
-/

namespace PluginHost

open Children Rpc

/-- The names that plugins cannot have as commands. -/
def reservedNames : List String := ["plugins", "config", "completions", "help"]

/-- The command of a plugin: its name, what is said about it, and the place of the plugin. -/
structure PluginCommand where
  name : String
  about : String
  place : Nat
  deriving DecidableEq, Repr

/-- What is said about the command of a plugin. -/
def Descriptor.about (d : Descriptor) : String :=
  d.name ++ " " ++ d.version ++ ": " ++ d.description

/-- A plugin that is to be registered, and its place. -/
structure Registration where
  place : Nat
  plugin : Descriptor
  deriving DecidableEq, Repr

/-- The command that a plugin asks for. -/
def Registration.command (x : Registration) : PluginCommand :=
  ⟨x.plugin.name, x.plugin.about, x.place⟩

/-- The commands of plugins, in the order in which they were registered. -/
structure Registry where
  commands : List PluginCommand := []
  deriving DecidableEq, Repr

/-- Why a plugin cannot do its work. -/
inductive InvocationError where
  /-- The plugin itself has refused. -/
  | refused (message : String)
  | transport (error : RpcError)
  | unknown (name : String)
  deriving Repr

namespace InvocationError

/-- The wording of each cause. -/
def message : InvocationError → String
  | .refused message => message
  | .transport error => error.message
  | .unknown name => "Unknown plugin command: " ++ name

/-- What a call that fails means for the one who asked for it. -/
def ofRpc : RpcError → InvocationError
  | .status failure => .refused failure.message
  | error => .transport error

end InvocationError

namespace Registry

/-- The command that a name stands for. -/
def resolve (r : Registry) (name : String) : Option PluginCommand :=
  r.commands.reverse.find? (·.name == name)

/-- A name stands for a command. -/
def contains (r : Registry) (name : String) : Bool := (r.resolve name).isSome

/-- A record of the registry. -/
def record (message : String) : LogRecord := ⟨.warn, .registrar, message⟩

/-- What is told of a plugin that cannot have its name as a command. -/
def reservedRecord (d : Descriptor) : LogRecord :=
  record ("Plugin " ++ Path.display d.path ++ " uses the reserved command name '" ++ d.name
    ++ "' and will not be available")

/-- What is told of a plugin that takes over a name. -/
def takenRecord (d : Descriptor) (previous : PluginCommand) : LogRecord :=
  record ("Plugin command '" ++ d.name
    ++ "' is registered more than once; the plugin loaded from " ++ Path.display d.path
    ++ s!" takes precedence over plugin #{previous.place}")

/-- What is told of a command that bears the name of another one. -/
def collisionRecord (name : String) : LogRecord :=
  record ("Plugin command '" ++ name ++ "' collides with a built-in command")

/-- What is told when a plugin is registered. -/
def recordsOf (r : Registry) (d : Descriptor) : List LogRecord :=
  if reservedNames.contains d.name then [reservedRecord d]
  else (r.resolve d.name).toList.map (takenRecord d)

/-- Registers a plugin, unless its name is reserved. -/
def register (r : Registry) (place : Nat) (d : Descriptor) : Registry :=
  if reservedNames.contains d.name then r
  else ⟨r.commands ++ [⟨d.name, d.about, place⟩]⟩

/-- What the one who registers a plugin is told: whether the plugin now has a command, and the
records. -/
structure Answer where
  isAdded : Bool
  records : List LogRecord
  deriving DecidableEq, Repr

/-- One call that registers a plugin: what is told, and the registry after it. -/
def call (r : Registry) (x : Registration) : Answer × Registry :=
  (⟨!reservedNames.contains x.plugin.name, r.recordsOf x.plugin⟩, r.register x.place x.plugin)

/-- Calls that register plugins, one after the other. -/
def callAll (r : Registry) : List Registration → List Answer × Registry
  | [] => ([], r)
  | x :: rest =>
      let (answer, after) := r.call x
      let (answers, last) := after.callAll rest
      (answer :: answers, last)

/-- Registers plugins, the first of them at a place. -/
def registerFrom (r : Registry) (place : Nat) : List Descriptor → Registry × List LogRecord
  | [] => (r, [])
  | d :: rest =>
      let (after, records) := (r.register place d).registerFrom (place + 1) rest
      (after, r.recordsOf d ++ records)

/-- The commands of plugins, and what is told of them. -/
def ofDescriptors (ds : List Descriptor) : Registry × List LogRecord :=
  ({} : Registry).registerFrom 0 ds

/-- The commands that the names resolve to, in the order in which the names are first seen. -/
def effective (r : Registry) : List PluginCommand :=
  (r.commands.map (·.name)).eraseDups.filterMap r.resolve

/-- The commands that can stand beside others. -/
def additions (r : Registry) (taken : List String) : List PluginCommand :=
  r.effective.filter fun c => !taken.contains c.name

/-- What is told of the commands that cannot. -/
def collisions (r : Registry) (taken : List String) : List LogRecord :=
  (r.effective.filter fun c => taken.contains c.name).map fun c => collisionRecord c.name

/-- Lets the plugin of a command do its work. -/
def dispatch {ε : Type} (r : Registry) (name : String) (plugins : PluginSet) :
    Step ε (Except InvocationError Unit × PluginSet) := do
  match r.resolve name with
  | none => pure (.error (.unknown name), plugins)
  | some command =>
      match ← plugins.runAt command.place with
      | (none, plugins) => pure (.error (.unknown name), plugins)
      | (some (.ok ()), plugins) => pure (.ok (), plugins)
      | (some (.error e), plugins) => pure (.error (.ofRpc e), plugins)

end Registry

end PluginHost
