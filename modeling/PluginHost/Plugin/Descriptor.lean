import PluginHost.Path
import PluginHost.Rpc.Message

/-!
# Descriptors

What the host knows of a loaded plugin: how it describes itself, and the file it was loaded from.
-/

namespace PluginHost

/-- A plugin that describes itself, and where it stands. -/
structure Descriptor where
  name : String
  version : String
  description : String
  path : Path
  deriving DecidableEq, Repr

/-- The descriptor of a plugin that was loaded from a file. -/
def Descriptor.ofInfo (info : Rpc.PluginInfo) (path : Path) : Descriptor :=
  ⟨info.name, info.version, info.description, path⟩

end PluginHost
