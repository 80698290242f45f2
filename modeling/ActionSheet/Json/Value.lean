/-!
# JSON values

A value is kept as its text gives it. Two things that many readers fold away are kept apart,
because what a field accepts depends on them: a number that is written as an integer against one
written with a fraction, an exponent or a negative zero; and a string against a literal that is
grammatical but names half a surrogate pair, so that it spells no text. Members keep their order,
and repeated names stay.
-/

namespace ActionSheet

/-- A JSON value. A string or a name is `none` where an escape in it names half a surrogate
pair. -/
inductive Json where
  | null
  | bool (b : Bool)
  | integer (n : Int)
  | real (literal : String)
  | string (s : Option String)
  | array (items : List Json)
  | object (members : List (Option String × Json))
  deriving Repr, Inhabited

namespace Json

/-- A string that spells a text. -/
def text (s : String) : Json := .string (some s)

/-- A natural number. -/
def natural (n : Nat) : Json := .integer n

/-- An object with the given members. -/
def record (members : List (String × Json)) : Json :=
  .object (members.map fun (name, v) => (some name, v))

/-- A text, or `null` where there is none. -/
def textOrNull : Option String → Json
  | none => .null
  | some s => .text s

/-- An array with one value per element of a list. -/
def list {α : Type} (encode : α → Json) (l : List α) : Json :=
  .array (l.map encode)

/-- The members of a list in which only the last of those with one name is kept, in its place. -/
def lastOfEach : List (Option String × Json) → List (Option String × Json)
  | [] => []
  | (name, v) :: rest =>
    if (rest.map (·.1)).contains name then lastOfEach rest else (name, v) :: lastOfEach rest

mutual

/-- The value in which every object keeps the last of the members that share a name. -/
def lastWins : Json → Json
  | .array items => .array (lastWinsItems items)
  | .object members => .object (lastOfEach (lastWinsMembers members))
  | v => v

/-- `lastWins` along a list of values. -/
def lastWinsItems : List Json → List Json
  | [] => []
  | v :: rest => lastWins v :: lastWinsItems rest

/-- `lastWins` along a list of members. -/
def lastWinsMembers : List (Option String × Json) → List (Option String × Json)
  | [] => []
  | (name, v) :: rest => (name, lastWins v) :: lastWinsMembers rest

end

/-- The last member of an object that has a given name. -/
def member? (name : String) : Json → Option Json
  | .object members => (members.filter (·.1 == some name)).getLast?.map (·.2)
  | _ => none

end Json

end ActionSheet
