import PluginHost.Children.Program

/-!
# A plugin for demonstrations

The demo plugin bears the name of its own file up to the first dot, so that one program can be
installed under several names.  Its run writes down the arguments it was given, or fails when it is
asked to.
-/

namespace PluginHost.Demo

open Rpc

/-- The name of the plugin in a file. -/
def nameOf (file : Bytes) : String :=
  let name := (lossyText file).toList.takeWhile (· != '.')
  if name.isEmpty then "demo" else String.ofList name

/-- The argument that makes a run fail. -/
def failFlag : String := "--fail"

/-- The demo plugin under a name.  Its state is what it has written. -/
def program (name : String) : Program Bytes where
  info _ := { name, description := "Echo the arguments it is given", version := "1.0" }
  run written args :=
    if args.contains failFlag then (.error (name ++ " failed as requested"), written)
    else (.ok (), written ++ utf8 (name ++ " received: " ++ " ".intercalate args ++ "\n"))

/-- What the demo plugin does when it is started and listens at an address. -/
def launch (address : String) (s : Children.Start) : Children.Launch :=
  Children.launchOf (program (nameOf s.name)) [] id address s

end PluginHost.Demo
