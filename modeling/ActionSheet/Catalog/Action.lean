/-!
# Actions

An action is a definition that passed the filter and was joined to its message: three texts that
identify it, and the body that describes its arguments.
-/

namespace ActionSheet

/-- A custom action and the body of its definition. -/
structure Action where
  name : String
  messageName : String
  primaryEntity : String
  definition : String
  deriving DecidableEq, Repr

/-- The texts that identify an action, in the order of the sheet. -/
def Action.identifying (a : Action) : List String :=
  [a.name, a.messageName, a.primaryEntity]

end ActionSheet
