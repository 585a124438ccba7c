import PluginHost.Archive.Gzip
import PluginHost.Archive.Tar
import PluginHost.Archive.Zip
import PluginHost.Text.Lowercase

/-!
# Formats of artifacts

How an artifact is packed is judged by its name alone, in any letter case.  What is no archive is
taken for a program itself.
-/

namespace PluginHost.Archive

/-- How an artifact is packed. -/
inductive Format where
  | tarGz
  | tar
  | zip
  | binary
  deriving DecidableEq, Repr

/-- A text ends with another one. -/
def endsWith (text tail : String) : Bool := tail.toList.reverse.isPrefixOf text.toList.reverse

/-- The name that a path ends with, in small letters. -/
def lowercaseName (p : Path) : String :=
  match Path.fileName p with
  | some name => Text.lowercase (lossyText name)
  | none => ""

/-- The format of an artifact. -/
def Format.ofPath (p : Path) : Format :=
  let name := lowercaseName p
  if endsWith name ".tar.gz" || endsWith name ".tgz" then .tarGz
  else if endsWith name ".tar" then .tar
  else if endsWith name ".zip" then .zip
  else .binary

end PluginHost.Archive
