import PluginHost.Archive.EntryPath
import PluginHost.Archive.Format

/-!
# Unpacking artifacts

`extract` unpacks an artifact into a directory and returns the programs in it.  Entries are
unpacked in order, each below the directory (`unpackEntry`), up to the first failure; what stands
before it stays.  Which files are taken for programs is decided by `isProgram`.
-/

namespace PluginHost.Archive

open FileAction

/-- A file that has been unpacked, and the mode that the archive gives to it. -/
abbrev UnpackedFile := Path × Option Nat

/-- Makes a directory and those above it. -/
def makeDirectories (p : Path) : FileAction ArchiveError Unit :=
  changeAll .io fun t => t.makeDirectories p

/-- Makes the directory that a path stands in. -/
def makeParent (p : Path) : FileAction ArchiveError Unit :=
  match Path.parent p with
  | some above => makeDirectories above
  | none => pure ()

/-- Unpacks one entry below a directory. -/
def unpackEntry (target : Path) (e : Entry) : FileAction ArchiveError (List UnpackedFile) := do
  let p ← ExceptT.mk (pure (cleanPath e.path))
  let place := Path.join target p
  match e.kind with
  | .directory =>
      makeDirectories place
      pure []
  | .file =>
      makeParent place
      change .io fun t => t.write place e.data
      pure [(place, e.mode)]
  | .other => pure []

/-- Unpacks entries in order. -/
def unpackEntries (target : Path) : List Entry → FileAction ArchiveError (List UnpackedFile)
  | [] => pure []
  | e :: rest => do
      let files ← unpackEntry target e
      let more ← unpackEntries target rest
      pure (files ++ more)

/-- Unpacks an archive. -/
def unpack (target : Path) (l : Listing) : FileAction ArchiveError (List UnpackedFile) := do
  let files ← unpackEntries target l.entries
  match l.fault with
  | some e => throw e
  | none => pure files

/-- Names, without their extensions, of what lies beside the programs in an archive. -/
def documentNames : List String :=
  ["license", "licence", "readme", "notice", "changelog", "authors"]

/-- The name is hidden or that of a document. -/
def isHiddenOrDocument (name : String) : Bool :=
  name.toList.head? == some '.' ||
    documentNames.contains (String.ofList (name.toList.takeWhile (· != '.')))

/-- The mode allows somebody to execute the file. -/
def isExecutableMode (mode : Option Nat) : Bool :=
  match mode with
  | some m => m &&& 0o111 != 0
  | none => false

/-- A file is taken for a program if the archive says that it can be executed, or if its name
looks like the name of a program. -/
def isProgram (file : UnpackedFile) : Bool :=
  let name := lowercaseName file.1
  !isHiddenOrDocument name &&
    (isExecutableMode file.2 || (Path.extension file.1).isNone || endsWith name ".exe")

/-- The contents of an archive file.  That a zip archive is a directory shows when it is read. -/
def readArchive (format : Format) (artifact : Path) : FileAction ArchiveError Bytes :=
  ask (fun e => if format == .zip && e == IoError.isADirectory then .zip else .io e)
    fun t => t.read artifact

/-- What an archive of a format holds. -/
def Format.listing (format : Format) (data : Bytes) : Listing :=
  match format with
  | .tarGz => Tar.listing (Gzip.source data)
  | .tar => Tar.listing ⟨data, true⟩
  | .zip => Zip.listing data
  | .binary => ⟨[], none⟩

/-- Unpacks an artifact into a directory and returns the programs in it. -/
def extract (artifact target : Path) : FileAction ArchiveError (List Path) := do
  makeDirectories target
  match Format.ofPath artifact with
  | .binary =>
      match Path.fileName artifact with
      | none => throw (.unsafePath artifact)
      | some name =>
          let place := Path.join target name
          change .io fun t => t.copy artifact place
          pure [place]
  | format =>
      let data ← readArchive format artifact
      let files ← unpack target (format.listing data)
      match (files.filter isProgram).map (·.1) with
      | [] => throw (.noExecutables artifact)
      | programs => pure programs

end PluginHost.Archive
