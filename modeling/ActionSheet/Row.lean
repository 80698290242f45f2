import ActionSheet.Argument

/-!
# Rows of the sheet

The arguments of one definition become a block of rows. The first row leads the block: it carries
the cells that identify the definition, each spanning every row of the block. The rows after it
carry an argument and nothing else. A definition without arguments has no rows, and without
identifying columns no row leads.
-/

namespace ActionSheet

/-- A cell that reaches down over several rows. -/
structure SpannedCell where
  value : String
  rowSpan : Nat
  deriving DecidableEq, Repr

/-- A row of the sheet. -/
inductive Row where
  | leading (identifying : List SpannedCell) (argument : Argument)
  | following (argument : Argument)
  deriving DecidableEq, Repr

namespace Row

/-- The argument that a row describes. -/
def argument : Row → Argument
  | leading _ a => a
  | following a => a

/-- Whether a row leads its block. -/
def isLeading : Row → Bool
  | leading .. => true
  | following _ => false

/-- The identifying cells of a row; a following row has none. -/
def identifying : Row → List SpannedCell
  | leading cells _ => cells
  | following _ => []

/-- The number of cells of a row. -/
def cellCount (r : Row) : Nat :=
  r.identifying.length + Argument.columnCount

/-- The rows of a definition's arguments, under the columns that identify it. -/
def block (identifying : List String) : List Argument → List Row
  | [] => []
  | a :: rest =>
    let span := rest.length + 1
    let first := if identifying.isEmpty then following a
      else leading (identifying.map fun value => ⟨value, span⟩) a
    first :: rest.map following

end Row

end ActionSheet
