/-!
# Shapes of records

What the reader of a stored record looks into: the fields that it knows, and what it looks into in
each of them. The rest of a record it passes over unseen.
-/

namespace ActionSheet.Record

/-- What a reader looks into. -/
inductive Shape where
  /-- A value without parts. -/
  | scalar
  | list (element : Shape)
  /-- A record with its known fields, in the order in which they are declared. -/
  | record (fields : List (String × Shape))

namespace Shape

/-- A record whose known fields have no parts. -/
def flat (names : List String) : Shape := .record (names.map (·, .scalar))

/-- The names of the known fields. -/
def names : Shape → List String
  | .record fields => fields.map (·.1)
  | _ => []

/-- A process definition. -/
def workflow : Shape :=
  flat ["workflow_id", "name", "state_code", "status_code", "type", "category", "primary_entity",
    "sdk_message_id", "xaml"]

/-- A message. -/
def message : Shape := flat ["sdk_message_id", "name"]

/-- The content of a catalog. -/
def snapshot : Shape := .record [("workflows", .list workflow), ("messages", .list message)]

/-- A filter. -/
def filter : Shape := flat ["state_code", "status_code", "workflow_type", "category"]

/-- The names by which the parts of a definition are recognised. -/
def namespaces : Shape := flat ["core", "annotation_prefix"]

/-- The settings of a run. -/
def config : Shape :=
  .record [("database_url", .scalar), ("filter", filter), ("namespaces", namespaces)]

end Shape

end ActionSheet.Record
