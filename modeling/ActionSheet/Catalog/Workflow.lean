import ActionSheet.Uuid

/-!
# Process definitions

A repository stores process definitions of every kind in one table. What makes one of them a
published custom action is four codes, and a message that it answers to. `Filter` holds the four
codes; its defaults single out the published custom actions.
-/

namespace ActionSheet

/-- A process definition as the repository stores it. -/
structure Workflow where
  id : Uuid
  name : String
  state : Int32
  status : Int32
  kind : Int32
  category : Int32
  primaryEntity : Option String
  message : Option Uuid
  body : Option String
  deriving DecidableEq

/-- A message: the name under which an action is called. -/
structure Message where
  id : Uuid
  name : String
  deriving DecidableEq

/-- The four codes that a definition must carry. -/
structure Filter where
  /-- The activation state; one is activated. -/
  state : Int32 := 1
  /-- The status; two is published. -/
  status : Int32 := 2
  /-- The kind of definition; one is neither a template nor an activation. -/
  kind : Int32 := 1
  /-- The category of the process; three is an action. -/
  category : Int32 := 3
  deriving DecidableEq

/-- Whether a definition carries the codes of a filter. -/
def Filter.admits (f : Filter) (w : Workflow) : Bool :=
  w.state == f.state && w.status == f.status && w.kind == f.kind && w.category == f.category

/-- The content of a catalog at one moment, as it is stored in a file. -/
structure Snapshot where
  workflows : List Workflow := []
  messages : List Message := []
  deriving DecidableEq

end ActionSheet
