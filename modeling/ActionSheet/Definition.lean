import ActionSheet.Config
import ActionSheet.Markup.Tree
import ActionSheet.Row

/-!
# Definitions

The body of an action is a document in which every property with content of its own declares an
argument. Properties are recognised by the core namespace and may stand anywhere below the root.
The remarks about an argument stand in the first group of the property, one element each; they are
read only when the root declares the annotation prefix.

An argument without a name or a type is left out of the sheet and reported with its place among the
arguments; a body that is no document is refused as a whole.
-/

namespace ActionSheet

open Markup

/-- The body of an action, with the names that give its parts their meaning. -/
structure Definition where
  root : Element
  core : String
  annotationPrefix : String

/-- An argument that cannot be shown. -/
structure SkippedArgument where
  /-- The place among the arguments of the definition, counted from zero. -/
  index : Nat
  name : Option String
  reason : Fault
  deriving DecidableEq, Repr

/-- What a definition contributes to the sheet. -/
structure Rendering where
  rows : List Row
  skipped : List SkippedArgument
  deriving DecidableEq, Repr

namespace Definition

/-- The definition that a body spells. -/
def parse (body : String) (names : Namespaces) : Except Fault Definition := do
  let root ← Markup.parse body
  return ⟨root, names.core, names.annotationPrefix⟩

/-- The namespace that the root declares for the annotation prefix. -/
def annotationNamespace (d : Definition) : Option String :=
  d.root.declaredNamespace? d.annotationPrefix

/-- Whether the definition carries remarks at all. -/
def isAnnotated (d : Definition) : Bool :=
  d.annotationNamespace.isSome

/-- The properties below the root, in document order. -/
def properties (d : Definition) : List Element :=
  d.root.descendants.filter (·.isNamed d.core "Property")

/-- The properties that declare an argument. -/
def argumentProperties (d : Definition) : List Element :=
  d.properties.filter (·.hasElements)

/-- The remarks about an argument property, when it has a group of them. -/
def remarks? (d : Definition) (property : Element) : Option (List Element) :=
  (property.child? d.core "Property.Attributes").map (·.children)

/-- An argument with what an element remarks about it; an element that is no remark says
nothing. -/
def note (a : Argument) (e : Element) : Argument :=
  match Remark.ofElement? e.name with
  | none => a
  | some remark => a.set ((e.firstAttribute?.map (·.value)).getD "") remark

/-- An attribute that a property must have. -/
def requiredAttribute (property : Element) (name : String) : Except Fault String :=
  match property.attribute? name with
  | some value => .ok value
  | none => .error (.missingAttribute "Property" name)

/-- The argument that a property declares. -/
def argument (d : Definition) (property : Element) : Except Fault Argument := do
  let name ← requiredAttribute property "Name"
  let type ← requiredAttribute property "Type"
  let plain : Argument := { name, type }
  if d.isAnnotated then
    return ((d.remarks? property).getD []).foldl note plain
  else
    return plain

/-- What comes of an argument property at a place among the arguments. -/
def outcome (d : Definition) (index : Nat) (property : Element) :
    Except SkippedArgument Argument :=
  match d.argument property with
  | .ok a => .ok a
  | .error reason => .error ⟨index, property.attribute? "Name", reason⟩

/-- What comes of every argument property, in order. -/
def outcomes (d : Definition) : List (Except SkippedArgument Argument) :=
  d.argumentProperties.mapIdx d.outcome

/-- The values of those outcomes that have one. -/
def shown {ε α : Type} (l : List (Except ε α)) : List α :=
  l.filterMap Except.toOption

/-- The failures among outcomes. -/
def failed {ε α : Type} (l : List (Except ε α)) : List ε :=
  l.filterMap fun
    | .ok _ => none
    | .error e => some e

/-- The rows of the definition under the columns that identify it, and the arguments that are
missing among them. -/
def render (d : Definition) (identifying : List String) : Rendering :=
  ⟨Row.block identifying (shown d.outcomes), failed d.outcomes⟩

end Definition

/-- What a body contributes to the sheet, or why it contributes nothing. -/
def renderBody (body : String) (identifying : List String) (names : Namespaces) :
    Except Fault Rendering := do
  let d ← Definition.parse body names
  return d.render identifying

/-- A body matters through its tree alone. -/
theorem renderBody_eq (body : String) (identifying : List String) (names : Namespaces) :
    renderBody body identifying names =
      (Markup.parse body).map fun root =>
        Definition.render ⟨root, names.core, names.annotationPrefix⟩ identifying := by
  rw [renderBody, Definition.parse]
  cases Markup.parse body <;> rfl

end ActionSheet
