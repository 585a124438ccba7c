import PluginHost.FileTree

/-!
# Actions on a file tree

An action reads and changes a file tree and may fail.  What it changed before it failed stays
changed.  The operations of `FileTree` become actions by `ask`, `change` and `changeAll`, with
the failure that each of them causes.
-/

namespace PluginHost

/-- A computation on a file tree that may fail. -/
abbrev FileAction (ε α : Type) := ExceptT ε (StateM FileTree) α

namespace FileAction

variable {ε α : Type}

/-- Reads something from the tree. -/
def ask (wrap : IoError → ε) (f : FileTree → Except IoError α) : FileAction ε α := fun t =>
  match f t with
  | .ok a => (.ok a, t)
  | .error e => (.error (wrap e), t)

/-- Changes the tree, or leaves it as it is and fails. -/
def change (wrap : IoError → ε) (f : FileTree → Except IoError FileTree) : FileAction ε Unit :=
  fun t =>
    match f t with
    | .ok t => (.ok (), t)
    | .error e => (.error (wrap e), t)

/-- Changes the tree, also when it fails. -/
def changeAll (wrap : IoError → ε) (f : FileTree → Except IoError Unit × FileTree) :
    FileAction ε Unit := fun t =>
  match f t with
  | (.ok (), t) => (.ok (), t)
  | (.error e, t) => (.error (wrap e), t)

/-- The same action, with the tree tidied up if it fails. -/
def onFailure (tidy : FileTree → FileTree) (action : FileAction ε α) : FileAction ε α := fun t =>
  match action t with
  | (.ok a, t) => (.ok a, t)
  | (.error e, t) => (.error e, tidy t)

/-- The same action with its failures told in other terms. -/
def wrapped {δ : Type} (wrap : δ → ε) (action : FileAction δ α) : FileAction ε α := fun t =>
  match action t with
  | (.ok a, t) => (.ok a, t)
  | (.error e, t) => (.error (wrap e), t)

end FileAction

end PluginHost
