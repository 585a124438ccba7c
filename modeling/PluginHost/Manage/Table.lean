import PluginHost.Plugin.Descriptor
import PluginHost.Text.Blank

/-!
# The table of plugins

Plugins are listed in a table with three columns, between two empty lines.  A column is as wide as
its longest cell takes bytes, and a gap more; cells are filled up with blanks to that many
characters, so no cell is cut and columns start at the same character in every row.
-/

namespace PluginHost.Manage

/-- The gap between two columns. -/
def columnGap : Nat := 4

/-- The cells of a row. -/
structure TableRow where
  name : String
  version : String
  description : String
  deriving DecidableEq, Repr

/-- The first row. -/
def headerRow : TableRow := ⟨"PLUGIN", "VERSION", "DESCRIPTION"⟩

/-- The row of a plugin. -/
def rowOf (d : Descriptor) : TableRow := ⟨d.name, d.version, d.description⟩

/-- The width of a column. -/
def columnWidth (cells : List String) : Nat :=
  (cells.map String.utf8ByteSize).foldl max 0 + columnGap

/-- A cell filled up with blanks. -/
def fill (width : Nat) (cell : String) : List Char :=
  cell.toList ++ List.replicate (width - cell.length) ' '

/-- A row before the blanks at its end are cut off. -/
def wideRow (nameWidth versionWidth : Nat) (r : TableRow) : List Char :=
  fill nameWidth r.name ++ fill versionWidth r.version ++ r.description.toList

/-- The line of a row. -/
def rowLine (nameWidth versionWidth : Nat) (r : TableRow) : List Char :=
  Text.trimEnd (wideRow nameWidth versionWidth r) ++ ['\n']

/-- The table of plugins. -/
def table (plugins : List Descriptor) : String :=
  let rows := headerRow :: plugins.map rowOf
  let nameWidth := columnWidth (rows.map (·.name))
  let versionWidth := columnWidth (rows.map (·.version))
  String.ofList ('\n' :: rows.flatMap (rowLine nameWidth versionWidth) ++ ['\n'])

end PluginHost.Manage
