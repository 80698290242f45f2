import ActionSheet.Row
import ActionSheet.Text.Decimal
import ActionSheet.Text.Escape

/-!
# The sheet

A table is a header and rows, written as HTML with two spaces of indentation and no line break at
its end. Every value passes through the escape, so a cell can hold markup without becoming any.
-/

namespace ActionSheet

/-- A table: the labels of its header, and its rows. -/
structure Table where
  header : List String
  rows : List Row
  deriving DecidableEq, Repr

namespace Table

open Text

/-- The labels of the sheet: three columns identify an action, seven describe an argument. -/
def labels : List String :=
  ["Action", "Unique Name", "Parent Entity", "Argument", "Type", "Is Mandatory", "Direction",
    "Is Target", "EntityAttribute", "Description"]

/-- A sheet without rows. -/
def empty : Table := ⟨labels, []⟩

/-- A table with rows added at its end. -/
def append (t : Table) (rows : List Row) : Table :=
  { t with rows := t.rows ++ rows }

/-- A plain cell, on a line of its own. -/
def cell (value : String) : List Char :=
  "    <td>".toList ++ escapeChars value.toList ++ "</td>\n".toList

/-- A cell that spans rows, on a line of its own. -/
def spannedCell (c : SpannedCell) : List Char :=
  "    <td rowSpan=\"".toList ++ digits c.rowSpan ++ "\">".toList ++ escapeChars c.value.toList
    ++ "</td>\n".toList

/-- A row of cells that are already written. -/
def line (cells : List Char) : List Char :=
  "  <tr>\n".toList ++ cells ++ "  </tr>".toList

/-- The cells of a row, the identifying ones first. -/
def rowCells (r : Row) : List Char :=
  r.identifying.flatMap spannedCell ++ r.argument.columns.flatMap cell

/-- The characters of the table's HTML. -/
def markup (t : Table) : List Char :=
  "<table>\n".toList ++ line (t.header.flatMap cell)
    ++ t.rows.flatMap (fun r => '\n' :: line (rowCells r)) ++ "\n</table>".toList

/-- The table as HTML. -/
def html (t : Table) : String :=
  String.ofList t.markup

end Table

end ActionSheet
