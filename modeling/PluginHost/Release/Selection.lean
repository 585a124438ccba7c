import PluginHost.Release.Document
import PluginHost.Text.Lowercase

/-!
# The asset for a system

Assets tell in their names which system and which machine they are made for.  The first asset for
the system that also names the machine is chosen, or else the first for the system.  Published
checksums are never chosen.
-/

namespace PluginHost.Release

/-- A list stands somewhere in another one. -/
def occursIn {α : Type} [BEq α] (part : List α) : List α → Bool
  | [] => part.isEmpty
  | a :: rest => part.isPrefixOf (a :: rest) || occursIn part rest

/-- What the names of published checksums end with. -/
def checksumEnding : String := ".sha256"

/-- The name of an asset in small letters. -/
def Asset.key (a : Asset) : List Char := (Text.lowercase a.name).toList

/-- The asset is a published checksum. -/
def Asset.isChecksum (a : Asset) : Bool := checksumEnding.toList.reverse.isPrefixOf a.key.reverse

/-- The asset names one of the words. -/
def Asset.names (a : Asset) (words : List String) : Bool := words.any fun w => occursIn w.toList a.key

/-- The words for a system. -/
def systemWords (system : String) : List String :=
  if system == "linux" then ["linux"]
  else if system == "macos" then ["darwin", "macos", "apple", "osx"]
  else if system == "windows" then ["windows", "win64", "win32"]
  else if system == "freebsd" then ["freebsd"]
  else []

/-- The words for a machine. -/
def machineWords (machine : String) : List String :=
  if machine == "x86_64" then ["x86_64", "amd64", "x64"]
  else if machine == "aarch64" then ["aarch64", "arm64"]
  else if machine == "x86" then ["i386", "i686", "386"]
  else []

/-- The asset is made for a system. -/
def Asset.isFor (a : Asset) (system : String) : Bool :=
  !a.isChecksum && a.names (systemWords system)

/-- The asset that is chosen for a system and a machine. -/
def select (assets : List Asset) (system machine : String) : Option Asset :=
  let candidates := assets.filter (·.isFor system)
  (candidates.find? (·.names (machineWords machine))).or candidates.head?

end PluginHost.Release
