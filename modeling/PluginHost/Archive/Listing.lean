import PluginHost.FileAction

/-!
# What an archive holds

All archive formats are read into one form: the entries in the order in which they are unpacked,
and the fault that the archive has behind them, if it has one.  Unpacking works through the
entries first, so what stands before a fault is written out.
-/

namespace PluginHost.Archive

/-- Why an artifact cannot be unpacked. -/
inductive ArchiveError where
  /-- The path of an entry leads out of the directory it is unpacked to. -/
  | unsafePath (path : Path)
  /-- The path of an entry has no step. -/
  | emptyPath
  /-- A zip archive is malformed. -/
  | zip
  /-- Nothing in the artifact is taken for a program. -/
  | noExecutables (artifact : Path)
  | io (error : IoError)
  deriving DecidableEq, Repr

/-- The wording of each cause. -/
def ArchiveError.message : ArchiveError → String
  | .unsafePath path => "Archive entry escapes destination: " ++ Path.display path
  | .emptyPath => "Archive entry has an empty path"
  | .zip => "Invalid zip archive"
  | .noExecutables artifact => "No executables found in " ++ Path.display artifact
  | .io error => "IO error: " ++ error.message

/-- What an entry makes.  Links and devices make nothing. -/
inductive EntryKind where
  | file
  | directory
  | other
  deriving DecidableEq, Repr

/-- An entry: its path as the archive spells it, and what a file holds. -/
structure Entry where
  path : Path
  kind : EntryKind
  mode : Option Nat := none
  data : Bytes := []
  deriving DecidableEq, Repr

/-- The entries of an archive up to its end, or up to a fault. -/
structure Listing where
  entries : List Entry
  fault : Option ArchiveError := none
  deriving DecidableEq, Repr

namespace Listing

/-- An archive with a fault and nothing before it. -/
def faulty (e : ArchiveError) : Listing := ⟨[], some e⟩

/-- An archive that goes on behind an entry. -/
def cons (e : Entry) (l : Listing) : Listing := ⟨e :: l.entries, l.fault⟩

end Listing

/-- Bytes that arrive one after another, and whether their end is the true end.  Reading on behind
bytes that were cut off or damaged fails. -/
structure Source where
  data : Bytes
  intact : Bool
  deriving DecidableEq, Repr

end PluginHost.Archive
