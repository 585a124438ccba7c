import PluginHost.FileAction

/-!
# The plugin directory

Every regular file in the plugin directory, and every link to one, is a plugin.  They are tried in
the order of their paths.  A directory that is missing is made.
-/

namespace PluginHost

/-- The regular files in a directory. -/
def FileTree.filesIn (t : FileTree) (directory : Path) : Except IoError (List Path) := do
  let names ← t.list directory
  let files := (names.map (Path.join directory)).filter t.isFile
  pure (files.mergeSort fun a b => !Path.before b a)

/-- The files of the plugins in a directory. -/
def pluginFiles (directory : Path) : FileAction IoError (List Path) := fun t =>
  if t.isThere directory then FileAction.ask id (·.filesIn directory) t
  else
    match t.makeDirectories directory with
    | (.ok (), t) => (.ok [], t)
    | (.error e, t) => (.error e, t)

end PluginHost
