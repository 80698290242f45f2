import ActionSheet.Catalog.Basic
import ActionSheet.Definition
import ActionSheet.Json.Printer
import ActionSheet.Record.Write
import ActionSheet.Table

/-!
# Reports

A report is one sheet over many actions. Each action contributes on its own: the rows of its
arguments and a warning for each that is missing, or, when its body is no document, one warning and
nothing else. What goes wrong in one action leaves no trace in another.
-/

namespace ActionSheet

open Markup

/-- An action whose body is no document. -/
structure DocumentWarning where
  action : String
  reason : Fault
  deriving DecidableEq, Repr

/-- An argument that is missing from the sheet. -/
structure ArgumentWarning where
  action : String
  skipped : SkippedArgument
  deriving DecidableEq, Repr

/-- The sheet over some actions, and what is missing from it. -/
structure Report where
  /-- The number of actions, shown or not. -/
  definitions : Nat
  table : Table
  documentWarnings : List DocumentWarning
  argumentWarnings : List ArgumentWarning
  deriving DecidableEq, Repr

namespace Report

/-- A report over no action. -/
def empty : Report := ⟨0, Table.empty, [], []⟩

/-- A report with one more action. -/
def add (config : Config) (r : Report) (a : Action) : Report :=
  match renderBody a.definition a.identifying config.namespaces with
  | .error reason =>
    { r with
      definitions := r.definitions + 1
      documentWarnings := r.documentWarnings ++ [⟨a.name, reason⟩] }
  | .ok rendering =>
    { r with
      definitions := r.definitions + 1
      table := r.table.append rendering.rows
      argumentWarnings := r.argumentWarnings ++ rendering.skipped.map (⟨a.name, ·⟩) }

/-- The report over some actions, in their order. -/
def ofActions (config : Config) (actions : List Action) : Report :=
  actions.foldl (add config) empty

/-- The report over the actions of a catalog that pass the filter of the settings. -/
def ofCatalog (config : Config) (catalog : Catalog) : Report :=
  ofActions config (catalog.actions config.filter)

/-- The report over the actions that a source gives, or the failure of the source. -/
def ofSource (config : Config) (source : CatalogSource) : Except RepositoryFault Report :=
  (source.actions config.filter).map (ofActions config)

/-- The sheet as HTML. -/
def html (r : Report) : String := r.table.html

/-- Whether anything is missing from the sheet. -/
def hasWarnings (r : Report) : Bool :=
  !(r.documentWarnings.isEmpty && r.argumentWarnings.isEmpty)

end Report

/-! ## The report as data -/

/-- A table as data. -/
def Table.toJson (t : Table) : Json :=
  .record [("header", .list .text t.header), ("rows", .list Row.toJson t.rows)]

/-- The members of an argument that is missing. -/
def SkippedArgument.members (s : SkippedArgument) : List (String × Json) :=
  [("index", .natural s.index), ("property_name", .textOrNull s.name),
    ("error", .text s.reason.message)]

/-- A warning about an action. -/
def DocumentWarning.toJson (w : DocumentWarning) : Json :=
  .record [("action", .text w.action), ("error", .text w.reason.message)]

/-- A warning about an argument. -/
def ArgumentWarning.toJson (w : ArgumentWarning) : Json :=
  .record (("action", .text w.action) :: w.skipped.members)

/-- A report as data, with the id of the request that it answers and the time at which it was
made. -/
def Report.toJson (r : Report) (correlation : Uuid) (generatedAt : String) : Json :=
  .record [
    ("correlation_id", correlation.toJson),
    ("generated_at", .text generatedAt),
    ("definitions", .natural r.definitions),
    ("table", r.table.toJson),
    ("document_warnings", .list DocumentWarning.toJson r.documentWarnings),
    ("argument_warnings", .list ArgumentWarning.toJson r.argumentWarnings)]

end ActionSheet
