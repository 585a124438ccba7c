import PluginHost.Text.Blank

/-!
# Repository URLs

A repository is named by `github.com/OWNER/REPOSITORY`, with no blank inside and nothing before or
behind it but blanks.
-/

namespace PluginHost.Manage

open Text

/-- A repository. -/
structure Repository where
  owner : String
  name : String
  deriving DecidableEq, Repr

/-- A letter or a digit of ASCII. -/
def isAlphanumeric (c : Char) : Bool :=
  ('a' ≤ c && c ≤ 'z') || ('A' ≤ c && c ≤ 'Z') || ('0' ≤ c && c ≤ '9')

/-- A character of an owner's name. -/
def isOwnerChar (c : Char) : Bool := isAlphanumeric c || c == '-'

/-- A character of a repository's name. -/
def isRepositoryChar (c : Char) : Bool := isAlphanumeric c || c == '.' || c == '_' || c == '-'

/-- A text of at least one character, all of a class. -/
def isWordOf (belongs : Char → Bool) (cs : List Char) : Bool := !cs.isEmpty && cs.all belongs

/-- What every URL of a repository starts with. -/
def siteName : List Char := "github.com".toList

/-- The repository of a URL. -/
def Repository.parse? (url : String) : Option Repository :=
  match splitOn '/' (trimChars url.toList) with
  | [site, owner, name] =>
      if site == siteName && isWordOf isOwnerChar owner && isWordOf isRepositoryChar name then
        some ⟨String.ofList owner, String.ofList name⟩
      else none
  | _ => none

end PluginHost.Manage
