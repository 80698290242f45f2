import ActionSheet.Catalog.Workflow
import ActionSheet.Catalog.Action
import ActionSheet.Text.Utf8

/-!
# The catalog

A catalog keeps definitions in the order in which they came and one message for each id, the last
that came. Asking it for actions filters, joins and sorts: the sort is by the bytes of the name and
stable, so actions that share a name stay in the order in which their definitions came.
-/

namespace ActionSheet

/-- Definitions and messages held in memory. -/
structure Catalog where
  workflows : List Workflow := []
  messages : List Message := []
  deriving DecidableEq

namespace Catalog

/-- A catalog with nothing in it. -/
def empty : Catalog := {}

/-- The catalog with a definition added. -/
def addWorkflow (c : Catalog) (w : Workflow) : Catalog :=
  { c with workflows := c.workflows ++ [w] }

/-- The catalog with a message added, in place of any other of the same id. -/
def addMessage (c : Catalog) (m : Message) : Catalog :=
  { c with messages := m :: c.messages.filter (·.id ≠ m.id) }

/-- The message of a given id. -/
def message? (c : Catalog) (id : Uuid) : Option Message :=
  c.messages.find? (·.id = id)

/-- The catalog of a snapshot: its messages, then its definitions, one after the other. -/
def ofSnapshot (s : Snapshot) : Catalog :=
  s.workflows.foldl addWorkflow (s.messages.foldl addMessage empty)

/-- The action of a definition that has a message the catalog knows. -/
def action? (c : Catalog) (w : Workflow) : Option Action := do
  let id ← w.message
  let m ← c.message? id
  return ⟨w.name, m.name, w.primaryEntity.getD "", w.body.getD ""⟩

/-- The actions that pass a filter, by name. -/
def actions (c : Catalog) (f : Filter) : List Action :=
  ((c.workflows.filter f.admits).filterMap c.action?).mergeSort
    fun a b => Text.atMost a.name b.name

end Catalog

/-- A failure to reach the repository, or of the repository itself. -/
structure RepositoryFault where
  detail : String
  deriving DecidableEq, Repr

/-- The failure in words. -/
def RepositoryFault.message (f : RepositoryFault) : String :=
  "Repository fault: " ++ f.detail

/-- Where actions come from: memory, or a repository that cannot be asked. -/
inductive CatalogSource where
  | memory (catalog : Catalog)
  | faulty (fault : RepositoryFault)

/-- The actions of a source that pass a filter. -/
def CatalogSource.actions (filter : Filter) : CatalogSource → Except RepositoryFault (List Action)
  | memory catalog => .ok (catalog.actions filter)
  | faulty fault => .error fault

end ActionSheet
