import PluginHost.Archive.Listing

/-!
# Paths of archive entries

The path of an entry is cleaned before it is used: only its names count, and a path that starts
at the root or goes up is refused.  A cleaned path is made of names alone, so what it is put
behind stays above it.
-/

namespace PluginHost.Archive

/-- The step leads away from the names below a directory. -/
def leadsOut : Component → Bool
  | .root | .up => true
  | .here | .name _ => false

/-- The path of an entry without dots.  That a path leads out is found before that it is empty. -/
def cleanPath (p : Path) : Except ArchiveError Path :=
  let steps := Path.components p
  if steps.any leadsOut then .error (.unsafePath p)
  else
    match Path.names steps with
    | [] => .error .emptyPath
    | names => .ok (Path.ofNames names)

end PluginHost.Archive
