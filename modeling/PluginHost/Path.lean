import PluginHost.Bytes
import PluginHost.Text.Blank

/-!
# Paths

A path is a sequence of bytes, cut into parts by slashes.  `Path.components` is its meaning: empty
parts and dots inside it do not count.  `fileName`, `parent` and `extension` go by the components,
`join` puts one path behind another.
-/

namespace PluginHost

/-- A path, as it is written. -/
abbrev Path := Bytes

/-- The byte between the parts of a path. -/
def slash : UInt8 := 47

/-- The byte that starts the extension of a name. -/
def dot : UInt8 := 46

/-- One step of a path. -/
inductive Component where
  | root
  | here
  | up
  | name (bytes : Bytes)
  deriving DecidableEq, Repr

namespace Path

/-- The parts between the slashes. -/
def parts (p : Path) : List Bytes := Text.splitOn slash p

/-- The path starts at the root. -/
def isAbsolute (p : Path) : Bool := p.head? == some slash

/-- The step that a part behind the first one stands for. -/
def componentOf (part : Bytes) : Option Component :=
  if part == [] || part == [dot] then none
  else if part == [dot, dot] then some .up
  else some (.name part)

/-- The steps of a path.  A dot counts only at the start of a path that has no root. -/
def components (p : Path) : List Component :=
  if isAbsolute p then .root :: (parts p).filterMap componentOf
  else
    match parts p with
    | first :: rest =>
        let behind := (first :: rest).filterMap componentOf
        if first == [dot] then .here :: behind else behind
    | [] => []

/-- The bytes of a step. -/
def stepBytes : Component → Bytes
  | .root => [slash]
  | .here => [dot]
  | .up => [dot, dot]
  | .name bytes => bytes

/-- The name that a path ends with, when it ends with one. -/
def fileName (p : Path) : Option Bytes :=
  match (components p).getLast? with
  | some (.name bytes) => some bytes
  | _ => none

/-- The path without the slashes and dots at its end that make no step. -/
def trimmed (p : Path) : Path :=
  match dropEnd p.reverse with
  | [] => if isAbsolute p then [slash] else []
  | rest => rest.reverse
where
  /-- Drops slashes, and dots behind slashes, from the reversed path. -/
  dropEnd : Bytes → Bytes
    | [] => []
    | [b] => if b == slash then [] else [b]
    | b :: c :: rest =>
        if b == slash then dropEnd (c :: rest)
        else if b == dot && c == slash then dropEnd (c :: rest)
        else b :: c :: rest

/-- The path without the slashes at its end, except that the root keeps one. -/
def withoutSlashes (p : Path) : Path :=
  match p.reverse.dropWhile (· == slash) with
  | [] => p.take 1
  | rest => rest.reverse

/-- The path without its last step. -/
def parent (p : Path) : Option Path :=
  match (components p).getLast? with
  | none | some .root => none
  | some _ => some (trimmed ((trimmed p).reverse.dropWhile (· != slash)).reverse)

/-- Puts a path behind another one.  An absolute path stays as it is. -/
def join (base p : Path) : Path :=
  if isAbsolute p || base.isEmpty then p
  else if base.getLast? == some slash then base ++ p
  else base ++ slash :: p

/-- The path from a directory to what stands below it. -/
def relativeTo (base p : Path) : Path :=
  let base := withoutSlashes base ++ [slash]
  if base.isPrefixOf p then p.drop base.length else p

/-- The text of a path. -/
def display (p : Path) : String := lossyText p

/-- The part of a name behind its last dot, if a dot stands behind its first byte. -/
def extension (p : Path) : Option Bytes := do
  let name ← fileName p
  let after := name.reverse.takeWhile (· != dot)
  if after.length + 1 < name.length then some after.reverse else none

/-- A path of names. -/
def ofNames (names : List Bytes) : Path := (names.intersperse [slash]).flatten

/-- The names in the steps of a path. -/
def names (cs : List Component) : List Bytes :=
  cs.filterMap fun
    | .name bytes => some bytes
    | _ => none

/-- Paths are in the order of their steps. -/
def componentBefore (a b : Component) : Bool :=
  match rank a, rank b with
  | 3, 3 => Bytes.before (stepBytes a) (stepBytes b)
  | m, n => m < n
where
  /-- The place of a kind of step. -/
  rank : Component → Nat
    | .root => 0
    | .here => 1
    | .up => 2
    | .name _ => 3

/-- The order of lists of steps, a proper start before what it starts. -/
def stepsBefore : List Component → List Component → Bool
  | [], [] => false
  | [], _ :: _ => true
  | _ :: _, [] => false
  | a :: as, b :: bs => componentBefore a b || (a == b && stepsBefore as bs)

/-- The order of paths. -/
def before (p q : Path) : Bool := stepsBefore (components p) (components q)

end Path

end PluginHost
