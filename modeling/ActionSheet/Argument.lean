/-!
# Arguments of an action

An argument has a name and a type, and five remarks that its definition may carry about it. Every
field is text as it was written; an absent remark is the empty text. The columns of an argument are
its fields in the order of the sheet, where the direction comes before the target mark although
definitions usually write it after.
-/

namespace ActionSheet

/-- The remarks that a definition may make about an argument. -/
inductive Remark where
  | required
  | target
  | description
  | direction
  | entity
  deriving DecidableEq, Repr

namespace Remark

/-- The element that states a remark, by its local name. -/
def ofElement? : String → Option Remark
  | "ArgumentRequiredAttribute" => some required
  | "ArgumentTargetAttribute" => some target
  | "ArgumentDescriptionAttribute" => some description
  | "ArgumentDirectionAttribute" => some direction
  | "ArgumentEntityAttribute" => some entity
  | _ => none

end Remark

/-- An argument of an action. -/
structure Argument where
  name : String
  type : String
  required : String := ""
  direction : String := ""
  target : String := ""
  entity : String := ""
  description : String := ""
  deriving DecidableEq, Repr

namespace Argument

/-- The argument with one remark replaced. -/
def set (a : Argument) (value : String) : Remark → Argument
  | .required => { a with required := value }
  | .target => { a with target := value }
  | .description => { a with description := value }
  | .direction => { a with direction := value }
  | .entity => { a with entity := value }

/-- What an argument says about a remark. -/
def get (a : Argument) : Remark → String
  | .required => a.required
  | .target => a.target
  | .description => a.description
  | .direction => a.direction
  | .entity => a.entity

/-- The fields in the order of the sheet. -/
def columns (a : Argument) : List String :=
  [a.name, a.type, a.required, a.direction, a.target, a.entity, a.description]

/-- The number of columns that describe an argument. -/
def columnCount : Nat := 7

@[simp] theorem length_columns (a : Argument) : a.columns.length = columnCount := rfl

end Argument

end ActionSheet
