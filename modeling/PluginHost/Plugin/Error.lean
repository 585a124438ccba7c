import PluginHost.Duration
import PluginHost.Handshake
import PluginHost.Path
import PluginHost.Rpc.Client

/-!
# Why a plugin cannot be used

A plugin fails to start, to complete the handshake, or to answer a call.
-/

namespace PluginHost

open Rpc

/-- Why a plugin cannot be used. -/
inductive PluginError where
  | notFound (path : Path)
  | permissionDenied (path : Path)
  | spawn (path : Path) (error : IoError)
  | handshakeTimeout (limit : Duration)
  | exitedEarly
  | handshake (error : HandshakeError)
  | rpc (error : RpcError)
  | io (error : IoError)
  deriving Repr

namespace PluginError

/-- The wording of each cause. -/
def message : PluginError → String
  | .notFound path => "Plugin executable not found: " ++ Path.display path
  | .permissionDenied path => "Permission denied executing " ++ Path.display path
  | .spawn path error => "Failed to spawn " ++ Path.display path ++ ": " ++ error.message
  | .handshakeTimeout limit => "Plugin did not complete the handshake within " ++ limit.text
  | .exitedEarly => "Plugin exited before completing the handshake"
  | .handshake error => error.message
  | .rpc error => error.message
  | .io error => "IO error: " ++ error.message

/-- Why a file could not be started. -/
def ofSpawn (path : Path) (error : IoError) : PluginError :=
  if error.isNotFound then .notFound path
  else if error.isPermissionDenied then .permissionDenied path
  else .spawn path error

end PluginError

end PluginHost
