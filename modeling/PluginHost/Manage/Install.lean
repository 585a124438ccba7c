import PluginHost.Archive.Extract
import PluginHost.Manage.Choice
import PluginHost.Manage.Repository
import PluginHost.Release.Download

/-!
# Installing and removing plugins

A plugin is installed from a release or from a local artifact: the artifact is unpacked in a
staging directory, every program in it is copied to a temporary file in the plugin directory
(`stageAll`), and only then are these moved to their places, one after the other (`placeAll`).  When
this fails, the temporary files that are left are removed.  Removing a plugin deletes one file.
-/

namespace PluginHost.Manage

open FileAction Archive Release

/-- Why plugins cannot be installed, chosen or removed. -/
inductive InstallError where
  | invalidUrl (url : String)
  | unknownToken (name : String)
  | notFound (artifact : Path)
  | release (error : ReleaseError)
  | archive (error : ArchiveError)
  | remove (path : Path) (error : IoError)
  | invalidSelection (choice : String)
  | io (error : IoError)
  deriving DecidableEq, Repr

/-- The wording of each cause. -/
def InstallError.message : InstallError → String
  | .invalidUrl url => url ++ " is not a valid Github repo URL"
  | .unknownToken name =>
      "No access token named '" ++ name ++ "'. Add one with 'sprig plugins auth add " ++ name ++ "'"
  | .notFound artifact => "Artifact not found: " ++ Path.display artifact
  | .release error => "Failed to fetch release: " ++ error.message
  | .archive error => "Failed to unpack artifact: " ++ error.message
  | .remove path error =>
      "Failed to remove plugin file " ++ Path.display path ++ ": " ++ error.message
  | .invalidSelection choice => "Invalid selection: " ++ choice
  | .io error => "IO error: " ++ error.message

/-- The repository of a URL, or the refusal of the URL as it was given. -/
def repositoryOf (url : String) : Except InstallError Repository :=
  match Repository.parse? url with
  | some r => .ok r
  | none => .error (.invalidUrl url)

/-- The token of a name. -/
def tokenOf (tokens : List (String × String)) (name : String) : Except InstallError String :=
  match tokens.lookup name with
  | some token => .ok token
  | none => .error (.unknownToken name)

/-- The refusal of a choice. -/
def InstallError.ofChoice : ChoiceError → InstallError
  | .invalid choice => .invalidSelection choice
  | .invalidText => .io .invalidText

/-- Where plugins are installed from. -/
inductive InstallSource where
  | repository (owner name : String) (token : Option String)
  | file (artifact : Path)
  deriving DecidableEq, Repr

/-- The mode of an installed plugin. -/
def programMode : Nat := 0o755

/-- Installs plugins into a directory. -/
structure Manager where
  directory : Path
  root : String := defaultRoot
  deriving DecidableEq, Repr

/-- The directory in which artifacts are staged.  It is empty before and gone afterwards. -/
def stagingDirectory : Path := utf8 "/tmp/.sprig-staging"

/-! ## Temporary files -/

/-- The name of a temporary file: a hidden one, with the last six digits of a number. -/
def temporaryName (n : Nat) : Bytes :=
  utf8 ".tmp" ++ (List.range 6).reverse.map fun i => UInt8.ofNat (48 + n / Nat.pow 10 i % 10)

/-- The mode of a temporary file: nobody else may read it. -/
def temporaryMode : Nat := 0o600

/-- How many names are tried for a temporary file. -/
def temporaryAttempts : Nat := 65536

/-- Makes a temporary file in a directory, under the first name that is free.  Names are tried from
a number on. -/
def makeTemporary (directory : Path) : (attempts number : Nat) → FileAction InstallError Path
  | 0, _ => throw (.io .alreadyExists)
  | attempts + 1, number => fun t =>
      let p := Path.join directory (temporaryName number)
      match t.makeNew p temporaryMode with
      | .ok t => (.ok p, t)
      | .error e =>
          if e == .alreadyExists then makeTemporary directory attempts (number + 1) t
          else (.error (.io e), t)

/-- A program that has been copied to a temporary file and is ready to be moved to its place. -/
structure Staged where
  temporary : Path
  place : Path
  deriving DecidableEq, Repr

/-- Takes temporary files away.  One that cannot be taken away is left. -/
def discardAll (staged : List Staged) (t : FileTree) : FileTree :=
  staged.foldl (fun t s => t.discard s.temporary) t

/-- Copies a program to a temporary file in the directory. -/
def stageProgram (directory source : Path) (name : Bytes) : FileAction InstallError Staged := do
  let temporary ← makeTemporary directory temporaryAttempts 0
  let staged : Staged := ⟨temporary, Path.join directory name⟩
  onFailure (discardAll [staged]) do
    let data ← ask .io fun t => t.read source
    change .io fun t => t.write temporary data
    change .io fun t => t.setMode temporary programMode
    pure staged

/-- Copies the programs to temporary files in the directory.  When one fails, none is left. -/
def stageAll (directory : Path) : List Path → FileAction InstallError (List Staged)
  | [] => pure []
  | source :: rest =>
      match Path.fileName source with
      | none => stageAll directory rest
      | some name => do
          let staged ← stageProgram directory source name
          onFailure (discardAll [staged]) do
            let more ← stageAll directory rest
            pure (staged :: more)

/-- Moves the programs to their places in order, and tells of each.  When one cannot be moved, it is
taken away with those that have not been moved yet. -/
def placeAll : List Staged → Task InstallError (List Path)
  | [] => pure []
  | s :: rest => do
      Task.onFiles (onFailure (discardAll (s :: rest))
        (change .io fun t => t.rename s.temporary s.place))
      Task.note ⟨.info, .manager, "Installed plugin file " ++ Path.display s.place⟩
      let more ← placeAll rest
      pure (s.place :: more)

namespace Manager

/-- Installs programs into the plugin directory. -/
def place (m : Manager) (programs : List Path) : Task InstallError (List Path) := do
  Task.onFiles (changeAll .io fun t => t.makeDirectories m.directory)
  let staged ← Task.onFiles (stageAll m.directory programs)
  placeAll staged

/-- Fetches the artifact of the last release of a repository. -/
def fetchRelease (m : Manager) (owner name : String) (token : Option String) :
    Task InstallError Path := do
  let service := Service.at m.root token
  let r ← Task.wrapped .release (service.latest owner name)
  Task.note ⟨.info, .manager, "Installing " ++ owner ++ "/" ++ name ++ " " ++ r.title⟩
  Task.wrapped .release (service.download r (Path.join stagingDirectory (utf8 "download")))

/-- The artifact of a source. -/
def artifactOf (m : Manager) : InstallSource → Task InstallError Path
  | .repository owner name token => m.fetchRelease owner name token
  | .file artifact => do
      let found ← Task.onFiles (ask .io fun t => .ok (t.isFile artifact))
      if found then pure artifact else throw (.notFound artifact)

/-- Installs every program of a source with the staging directory made. -/
def installStaged (m : Manager) (source : InstallSource) : Task InstallError (List Path) := do
  let artifact ← m.artifactOf source
  let programs ← Task.onFiles
    (wrapped .archive (extract artifact (Path.join stagingDirectory (utf8 "extract"))))
  m.place programs

/-- Takes away all that stands in the staging directory, and the directory itself. -/
def clearStaging (t : FileTree) : FileTree :=
  match t.locate false stagingDirectory with
  | .ok l => { t with entries := t.entries.filter fun (k, _) => !l.isPrefixOf k }
  | .error _ => t

/-- Installs every program of a source and returns where they stand. -/
def install (m : Manager) (source : InstallSource) : Task InstallError (List Path) := fun w =>
  match Task.onFiles (changeAll InstallError.io fun t => t.makeDirectories stagingDirectory) w with
  | (.error e, w) => (.error e, w)
  | (.ok (), w) =>
      match m.installStaged source w with
      | (r, w) => (r, { w with files := clearStaging w.files })

/-- Deletes the file of a plugin. -/
def remove (p : Path) : FileAction InstallError Unit :=
  change (.remove p) fun t => t.removeFile p

end Manager

end PluginHost.Manage
