import PluginHost.Path
import PluginHost.SystemError

/-!
# File trees

A file tree holds directories, regular files and symbolic links by their location, which is the
list of names on the way from the root.  A path leads to a location (`FileTree.locate`): dots and
links on the way are resolved, and every name before the last one has to be a directory.  The last
name may be missing, so that something can be put there.

The operations are those of a file system: `read`, `write`, `makeNew`, `makeDirectory`,
`makeDirectories`, `copy`, `rename`, `removeFile`, `setMode`, `list`.  A failed operation changes
nothing, except that `makeDirectories` may have made some of them.
-/

namespace PluginHost

/-- The names on the way from the root. -/
abbrev Location := List Bytes

/-- What stands at a location. -/
inductive FileNode where
  | directory
  | file (mode : Nat) (data : Bytes)
  | link (target : Path)
  deriving DecidableEq, Repr

/-- A file tree, with the directory in which relative paths start. -/
structure FileTree where
  entries : List (Location × FileNode)
  workingDirectory : Location
  deriving Repr

namespace FileTree

/-- The first entry at a location. -/
def entryAt (l : Location) : List (Location × FileNode) → Option FileNode
  | [] => none
  | (k, n) :: rest => if k == l then some n else entryAt l rest

/-- What stands at a location.  The root is always a directory. -/
def get? (t : FileTree) (l : Location) : Option FileNode :=
  if l.isEmpty then some .directory else entryAt l t.entries

/-- The entries with a node at a location, in the place of the old one or behind all others. -/
def putEntry (l : Location) (n : FileNode) : List (Location × FileNode) → List (Location × FileNode)
  | [] => [(l, n)]
  | (k, m) :: rest => if k == l then (l, n) :: rest else (k, m) :: putEntry l n rest

/-- Puts a node at a location. -/
def put (t : FileTree) (l : Location) (n : FileNode) : FileTree :=
  { t with entries := putEntry l n t.entries }

/-- Takes away what stands at a location. -/
def erase (t : FileTree) (l : Location) : FileTree :=
  { t with entries := t.entries.filter (·.1 != l) }

/-! ## Following paths -/

/-- The longest name of a file. -/
def maxNameLength : Nat := 255

/-- The longest path. -/
def maxPathLength : Nat := 4095

/-- How many links are followed on one way. -/
def maxLinks : Nat := 40

/-- Walks from a directory along the parts of a path.  `onLink` goes on behind a link; the last
part is a link to follow only if `follow` says so. -/
def walkWith (t : FileTree) (onLink : Location → List Bytes → Except IoError Location)
    (follow : Bool) : Location → List Bytes → Except IoError Location
  | current, [] => .ok current
  | current, part :: rest =>
      if part == [] || part == [dot] then walkWith t onLink follow current rest
      else if part == [dot, dot] then walkWith t onLink follow current.dropLast rest
      else if part.length > maxNameLength then .error .nameTooLong
      else
        match t.get? (current ++ [part]) with
        | some .directory => walkWith t onLink follow (current ++ [part]) rest
        | some (.link target) =>
            if rest.isEmpty && !follow then .ok (current ++ [part])
            else onLink (if Path.isAbsolute target then [] else current) (Path.parts target ++ rest)
        | some (.file _ _) => if rest.isEmpty then .ok (current ++ [part]) else .error .notADirectory
        | none => if rest.isEmpty then .ok (current ++ [part]) else .error .notFound

/-- Walks along the parts of a path through a limited number of links. -/
def walk (t : FileTree) (follow : Bool) : Nat → Location → List Bytes → Except IoError Location
  | 0 => walkWith t (fun _ _ => .error .tooManyLinks) follow
  | links + 1 => walkWith t (walk t follow links) follow

/-- The location that a path leads to.  Its last name may be missing there. -/
def locate (t : FileTree) (follow : Bool) (p : Path) : Except IoError Location :=
  if p.contains 0 then .error .zeroInPath
  else if p.isEmpty then .error .notFound
  else if p.length > maxPathLength then .error .nameTooLong
  else walk t follow maxLinks (if Path.isAbsolute p then [] else t.workingDirectory) (Path.parts p)

/-- What a path leads to, through links. -/
def node (t : FileTree) (p : Path) : Except IoError FileNode := do
  match t.get? (← t.locate true p) with
  | some n => pure n
  | none => throw .notFound

/-- The path leads to something. -/
def isThere (t : FileTree) (p : Path) : Bool :=
  match t.node p with
  | .ok _ => true
  | .error _ => false

/-- The path leads to a regular file. -/
def isFile (t : FileTree) (p : Path) : Bool :=
  match t.node p with
  | .ok (.file _ _) => true
  | _ => false

/-- The path leads to a directory. -/
def isDirectory (t : FileTree) (p : Path) : Bool :=
  match t.node p with
  | .ok .directory => true
  | _ => false

/-! ## Reading -/

/-- The contents of a file. -/
def read (t : FileTree) (p : Path) : Except IoError Bytes := do
  match ← t.node p with
  | .file _ data => pure data
  | _ => throw .isADirectory

/-- The name of a location within a directory. -/
def nameWithin (directory l : Location) : Option Bytes :=
  match l.getLast? with
  | some name => if l.dropLast == directory then some name else none
  | none => none

/-- The names in a directory. -/
def list (t : FileTree) (p : Path) : Except IoError (List Bytes) := do
  let l ← t.locate true p
  match t.get? l with
  | some .directory => pure (t.entries.filterMap fun (k, _) => nameWithin l k)
  | some _ => throw .notADirectory
  | none => throw .notFound

/-! ## Changing -/

/-- Makes a directory. -/
def makeDirectory (t : FileTree) (p : Path) : Except IoError FileTree := do
  let l ← t.locate false (Path.withoutSlashes p)
  match t.get? l with
  | some _ => throw .alreadyExists
  | none => pure (t.put l .directory)

/-- The outcome of making a directory, or of finding it made. -/
def madeOrThere (t : FileTree) (p : Path) : Except IoError FileTree :=
  match t.makeDirectory p with
  | .ok t => .ok t
  | .error e => if t.isDirectory p then .ok t else .error e

/-- Makes a directory and those above it; the number bounds how many. -/
def makeDirectoriesUpTo : Nat → FileTree → Path → Except IoError Unit × FileTree
  | 0, t, _ => (.error .notFound, t)
  | depth + 1, t, p =>
      if p.isEmpty then (.ok (), t)
      else
        match t.makeDirectory p with
        | .ok t => (.ok (), t)
        | .error e =>
            if e.isNotFound then
              match Path.parent p with
              | none => (.error e, t)
              | some above =>
                  match makeDirectoriesUpTo depth t above with
                  | (.error e, t) => (.error e, t)
                  | (.ok (), t) =>
                      match t.madeOrThere p with
                      | .ok t => (.ok (), t)
                      | .error e => (.error e, t)
            else if t.isDirectory p then (.ok (), t)
            else (.error e, t)

/-- Makes a directory and all that are missing above it. -/
def makeDirectories (t : FileTree) (p : Path) : Except IoError Unit × FileTree :=
  makeDirectoriesUpTo (p.length + 1) t p

/-- The mode of a file that is made without asking for another one. -/
def newFileMode : Nat := 0o644

/-- Writes a file: a new one with the given mode, or over one that is there.  A path that ends with
a slash asks for a directory. -/
def writeWithMode (t : FileTree) (p : Path) (mode : Nat) (data : Bytes) :
    Except IoError FileTree := do
  let l ← t.locate true (Path.withoutSlashes p)
  if p.getLast? == some slash then throw .isADirectory
  else
    match t.get? l with
    | some (.file old _) => pure (t.put l (.file old data))
    | none => pure (t.put l (.file mode data))
    | some _ => throw .isADirectory

/-- Writes a file: a new one, or over one that is there. -/
def write (t : FileTree) (p : Path) (data : Bytes) : Except IoError FileTree :=
  t.writeWithMode p newFileMode data

/-- Makes an empty file where nothing is.  A link is something, wherever it leads. -/
def makeNew (t : FileTree) (p : Path) (mode : Nat) : Except IoError FileTree := do
  let l ← t.locate false p
  match t.get? l with
  | some _ => throw .alreadyExists
  | none => pure (t.put l (.file mode []))

/-- Sets the mode of a file. -/
def setMode (t : FileTree) (p : Path) (mode : Nat) : Except IoError FileTree := do
  let l ← t.locate true p
  match t.get? l with
  | some (.file _ data) => pure (t.put l (.file mode data))
  | some _ => pure t
  | none => throw .notFound

/-- Copies a file with its mode. -/
def copy (t : FileTree) (source target : Path) : Except IoError FileTree := do
  match ← t.node source with
  | .file mode data => (← t.writeWithMode target mode data).setMode target mode
  | _ => throw .notRegular

/-- What is moved, from where and to where. -/
structure Move where
  old : Location
  new : Location
  node : FileNode
  deriving DecidableEq, Repr

/-- The tree with what is moved in its new place. -/
def Move.made (m : Move) (t : FileTree) : FileTree := (t.erase m.old).put m.new m.node

/-- The move of a file or a link from one path to another.  Only a directory in its new place is in
its way. -/
def moveOf (t : FileTree) (source target : Path) : Except IoError Move := do
  let old ← t.locate false source
  let new ← t.locate false target
  match t.get? old with
  | none => throw .notFound
  | some n => if t.get? new == some .directory then throw .isADirectory else pure ⟨old, new, n⟩

/-- Moves a file or a link.  A file or a link in its new place is replaced. -/
def rename (t : FileTree) (source target : Path) : Except IoError FileTree := do
  pure ((← t.moveOf source target).made t)

/-- Removes a file or a link. -/
def removeFile (t : FileTree) (p : Path) : Except IoError FileTree := do
  let l ← t.locate false p
  match t.get? l with
  | none => throw .notFound
  | some .directory => throw .isADirectory
  | some _ => pure (t.erase l)

/-- Removes a file or a link, if that can be done. -/
def discard (t : FileTree) (p : Path) : FileTree :=
  match t.removeFile p with
  | .ok t => t
  | .error _ => t

/-- Puts a file with a mode at a path, in directories that are made if they are missing. -/
def place (t : FileTree) (p : Path) (mode : Nat) (data : Bytes) : Except IoError FileTree := do
  let t := (t.makeDirectories ((Path.parent p).getD p)).2
  (← t.writeWithMode p mode data).setMode p mode

/-- Puts a link at a path, in directories that are made if they are missing. -/
def placeLink (t : FileTree) (p target : Path) : Except IoError FileTree := do
  let t := (t.makeDirectories ((Path.parent p).getD p)).2
  pure (t.put (← t.locate false p) (.link target))

/-- All that stands below a directory, by the names on the way from there, in the order of their
paths. -/
def below (t : FileTree) (directory : Location) : List (Location × FileNode) :=
  let inside := t.entries.filterMap fun (l, n) =>
    if directory.isPrefixOf l && l.length > directory.length then
      some (l.drop directory.length, n)
    else none
  inside.mergeSort fun a b => !Bytes.before (Path.ofNames b.1) (Path.ofNames a.1)

/-- All that stands below the directory that a path leads to, by its path from there. -/
def entriesBelow (t : FileTree) (p : Path) : List (Path × FileNode) :=
  match t.locate true p with
  | .error _ => []
  | .ok l => (t.below l).map fun (names, n) => (Path.ofNames names, n)

/-! ## Looking up what has been put -/

theorem entryAt_putEntry_self (l : Location) (n : FileNode) (entries : List (Location × FileNode)) :
    entryAt l (putEntry l n entries) = some n := by
  induction entries with
  | nil => simp [putEntry, entryAt]
  | cons head rest ih =>
      obtain ⟨k, m⟩ := head
      simp only [putEntry]
      split
      · simp [entryAt]
      · rename_i hne
        simp [entryAt, hne, ih]

theorem entryAt_putEntry_of_ne {l k : Location} (h : k ≠ l) (n : FileNode)
    (entries : List (Location × FileNode)) :
    entryAt k (putEntry l n entries) = entryAt k entries := by
  induction entries with
  | nil => simp [putEntry, entryAt, Ne.symm h]
  | cons head rest ih =>
      obtain ⟨j, m⟩ := head
      simp only [putEntry]
      split
      · rename_i heq
        have hj : j = l := by simpa using heq
        subst hj
        simp [entryAt, Ne.symm h]
      · simp [entryAt, ih]

theorem get?_put_self {t : FileTree} {l : Location} (h : l ≠ []) (n : FileNode) :
    (t.put l n).get? l = some n := by
  simp [get?, put, h, entryAt_putEntry_self]

theorem get?_put_of_ne {t : FileTree} {l k : Location} (h : k ≠ l) (n : FileNode) :
    (t.put l n).get? k = t.get? k := by
  simp [get?, put, entryAt_putEntry_of_ne h]

end FileTree

end PluginHost
