import ActionSheet.Json.Value
import ActionSheet.Catalog.Action
import ActionSheet.Config
import ActionSheet.Row

/-!
# Writing the records of the library

Every record is written as an object with all of its fields, in the order of their declaration;
a field that holds nothing is written as `null`.
-/

namespace ActionSheet

/-- An identifier as a string. -/
def Uuid.toJson (u : Uuid) : Json := .text u.toText

/-- An integer of thirty-two bits as a number. -/
def codeToJson (n : Int32) : Json := .integer n.toInt

/-- A process definition. -/
def Workflow.toJson (w : Workflow) : Json :=
  .record [
    ("workflow_id", w.id.toJson),
    ("name", .text w.name),
    ("state_code", codeToJson w.state),
    ("status_code", codeToJson w.status),
    ("type", codeToJson w.kind),
    ("category", codeToJson w.category),
    ("primary_entity", .textOrNull w.primaryEntity),
    ("sdk_message_id", (w.message.map Uuid.toJson).getD .null),
    ("xaml", .textOrNull w.body)]

/-- A message. -/
def Message.toJson (m : Message) : Json :=
  .record [("sdk_message_id", m.id.toJson), ("name", .text m.name)]

/-- The content of a catalog. -/
def Snapshot.toJson (s : Snapshot) : Json :=
  .record [
    ("workflows", .list Workflow.toJson s.workflows),
    ("messages", .list Message.toJson s.messages)]

/-- A filter. -/
def Filter.toJson (f : Filter) : Json :=
  .record [
    ("state_code", codeToJson f.state),
    ("status_code", codeToJson f.status),
    ("workflow_type", codeToJson f.kind),
    ("category", codeToJson f.category)]

/-- The names by which the parts of a definition are recognised. -/
def Namespaces.toJson (n : Namespaces) : Json :=
  .record [("core", .text n.core), ("annotation_prefix", .text n.annotationPrefix)]

/-- The settings of a run. -/
def Config.toJson (c : Config) : Json :=
  .record [
    ("database_url", .textOrNull c.databaseUrl),
    ("filter", c.filter.toJson),
    ("namespaces", c.namespaces.toJson)]

/-- An action and its definition. -/
def Action.toJson (a : Action) : Json :=
  .record [
    ("name", .text a.name),
    ("message_name", .text a.messageName),
    ("primary_entity", .text a.primaryEntity),
    ("raw_definition", .text a.definition)]

/-- An argument of an action. -/
def Argument.toJson (a : Argument) : Json :=
  .record [
    ("property_name", .text a.name),
    ("type_name", .text a.type),
    ("required", .text a.required),
    ("direction", .text a.direction),
    ("target", .text a.target),
    ("entity", .text a.entity),
    ("description", .text a.description)]

/-- A cell that spans rows. -/
def SpannedCell.toJson (c : SpannedCell) : Json :=
  .record [("value", .text c.value), ("row_span", .natural c.rowSpan)]

/-- A row of the sheet, the word for its kind first. -/
def Row.toJson : Row → Json
  | .leading cells a =>
    .record [("kind", .text "Parent"), ("identifying", .list SpannedCell.toJson cells),
      ("argument", a.toJson)]
  | .following a => .record [("kind", .text "Continuation"), ("argument", a.toJson)]

end ActionSheet
