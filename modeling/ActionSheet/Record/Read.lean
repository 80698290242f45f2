import ActionSheet.Record.Shape
import ActionSheet.Record.Source
import ActionSheet.Catalog.Action
import ActionSheet.Config
import ActionSheet.Row

/-!
# Reading the records of the library

One reader for each type, for every format that can answer the questions of `Source`. The order of
the names is the order of the fields where a record is written without names.
-/

namespace ActionSheet.Record

variable {α : Type} [Source α]

/-- An identifier. -/
def uuid (v : α) : Option Uuid :=
  (text v).bind Uuid.ofText?

/-- A process definition. -/
def workflow (v : α) : Option Workflow := do
  let fields ← fields? Shape.workflow.names v
  return {
    id := ← required uuid "workflow_id" fields
    name := ← required text "name" fields
    state := ← required int32 "state_code" fields
    status := ← required int32 "status_code" fields
    kind := ← required int32 "type" fields
    category := ← required int32 "category" fields
    primaryEntity := ← optional text "primary_entity" fields
    message := ← optional uuid "sdk_message_id" fields
    body := ← optional text "xaml" fields }

/-- A message. -/
def message (v : α) : Option Message := do
  let fields ← fields? Shape.message.names v
  return {
    id := ← required uuid "sdk_message_id" fields
    name := ← required text "name" fields }

/-- The content of a catalog. -/
def snapshot (v : α) : Option Snapshot := do
  let fields ← fields? Shape.snapshot.names v
  return {
    workflows := ← defaulted (list workflow) [] "workflows" fields
    messages := ← defaulted (list message) [] "messages" fields }

/-- A filter; a missing code is that of a published custom action. -/
def filter (v : α) : Option Filter := do
  let fields ← fields? Shape.filter.names v
  let standard : Filter := {}
  return {
    state := ← defaulted int32 standard.state "state_code" fields
    status := ← defaulted int32 standard.status "status_code" fields
    kind := ← defaulted int32 standard.kind "workflow_type" fields
    category := ← defaulted int32 standard.category "category" fields }

/-- The names by which the parts of a definition are recognised. -/
def namespaces (v : α) : Option Namespaces := do
  let fields ← fields? Shape.namespaces.names v
  let standard : Namespaces := {}
  return {
    core := ← defaulted text standard.core "core" fields
    annotationPrefix := ← defaulted text standard.annotationPrefix "annotation_prefix" fields }

/-- The settings of a run. -/
def config (v : α) : Option Config := do
  let fields ← fields? Shape.config.names v
  return {
    databaseUrl := ← optional text "database_url" fields
    filter := ← defaulted filter {} "filter" fields
    namespaces := ← defaulted namespaces {} "namespaces" fields }

/-- An action and its definition. -/
def action (v : α) : Option Action := do
  let fields ← fields? ["name", "message_name", "primary_entity", "raw_definition"] v
  return {
    name := ← required text "name" fields
    messageName := ← required text "message_name" fields
    primaryEntity := ← required text "primary_entity" fields
    definition := ← required text "raw_definition" fields }

/-- An argument of an action. -/
def argument (v : α) : Option Argument := do
  let fields ← fields? ["property_name", "type_name", "required", "direction", "target", "entity",
    "description"] v
  return {
    name := ← required text "property_name" fields
    type := ← required text "type_name" fields
    required := ← required text "required" fields
    direction := ← required text "direction" fields
    target := ← required text "target" fields
    entity := ← required text "entity" fields
    description := ← required text "description" fields }

/-- A cell that spans rows. -/
def spannedCell (v : α) : Option SpannedCell := do
  let fields ← fields? ["value", "row_span"] v
  return {
    value := ← required text "value" fields
    rowSpan := ← required natural64 "row_span" fields }

/-- The two kinds of row, by the word that names them. -/
def isLeadingKind? : String → Option Bool
  | "Parent" => some true
  | "Continuation" => some false
  | _ => none

/-- A row without the word for its kind, which is known. -/
def rowOfKind (leading : Bool) (layout : Layout α) : Option Row :=
  if leading then do
    let fields ← layout.fields? ["identifying", "argument"]
    return .leading (← required (list spannedCell) "identifying" fields)
      (← required argument "argument" fields)
  else do
    let fields ← layout.fields? ["argument"]
    return .following (← required argument "argument" fields)

/-- A row of the sheet. The word for its kind is one of the members, or comes first where the row
is written without names. -/
def row (v : α) : Option Row := do
  match ← Source.layout? v with
  | .named members =>
    let fields ← Layout.fields? ["kind"] (.named members)
    let kind ← required text "kind" fields
    rowOfKind (← isLeadingKind? kind) (.named (members.filter (·.1 != some "kind")))
  | .positional [] => none
  | .positional (kind :: values) =>
    rowOfKind (← isLeadingKind? (← text kind)) (.positional values)

end ActionSheet.Record
