import ActionSheet.Yaml.Token

/-!
# YAML documents

A document is a tree of nodes. A node that was given a name can stand in other places too; there it
is an alias. Names are counted as they come up, and an alias keeps the number that its name has at
that place. What a number means is settled only when the document is complete, so an alias inside
the very node that it names is no difficulty.

The number of a name is how many names there are when it is given, so a name that is given again is
counted anew while there are no more names than before; the next new name then gets the same number.
Of the nodes of one number the one that begins last is meant.

Tags on collections carry no meaning here and are not kept.
-/

namespace ActionSheet.Yaml

/-- A scalar: its tag, unless it has none, how it is written, and its text. -/
structure Scalar where
  tag : Option String
  style : Style
  text : String
  deriving DecidableEq, Repr

/-- A node of a document. -/
inductive Node where
  /-- The named node of a given number. -/
  | alias (number : Nat)
  | scalar (s : Scalar)
  | sequence (items : List Node)
  | mapping (entries : List (Node × Node))
  deriving Repr, Inhabited

/-- A plain scalar without text: what stands where nothing is written. -/
def Scalar.empty (tag : Option String) : Scalar := ⟨tag, .plain, ""⟩

/-- The node that stands where nothing is written. -/
def Node.empty : Node := .scalar (Scalar.empty none)

/-- A document: its root, and its named nodes by number. -/
structure Document where
  root : Node
  named : List (Nat × Node)

/-! ## Names -/

/-- The names of a document that is being read. -/
structure Anchors where
  /-- The number that each name has at present. -/
  numbers : List (String × Nat) := []
  /-- The numbers that were given, the latest first. -/
  given : List Nat := []
  /-- The named nodes that are complete, by how many numbers were given in front of them. -/
  nodes : List (Nat × Node) := []

namespace Anchors

/-- The number of a name, if there is a node of that name. -/
def number? (a : Anchors) (name : String) : Option Nat :=
  a.numbers.lookup name

/-- How many nodes were named. -/
def declared (a : Anchors) : Nat := a.given.length

/-- The anchors with a name given to the next node. -/
def declare (a : Anchors) (name : String) : Anchors :=
  let number := a.numbers.length
  { a with
    numbers := (name, number) :: a.numbers.filter (·.1 != name)
    given := number :: a.given }

/-- The anchors with a named node completed, in front of which some number of nodes was named. -/
def complete (a : Anchors) (before : Nat) (n : Node) : Anchors :=
  { a with nodes := (before, n) :: a.nodes }

/-- The named nodes by number; the first of two entries for one number counts. -/
def named (a : Anchors) : List (Nat × Node) :=
  (a.given.zip (List.range a.declared).reverse).filterMap fun (number, before) =>
    (a.nodes.lookup before).map (number, ·)

end Anchors

/-! ## Sizes -/

mutual

/-- How many marks it takes to tell a node: one for a scalar or an alias, and two around a
collection. -/
def Node.size : Node → Nat
  | .alias _ => 1
  | .scalar _ => 1
  | .sequence items => 2 + Node.sizeOfItems items
  | .mapping entries => 2 + Node.sizeOfEntries entries

/-- The sizes of some nodes together. -/
def Node.sizeOfItems : List Node → Nat
  | [] => 0
  | n :: ns => n.size + Node.sizeOfItems ns

/-- The sizes of some pairs of nodes together. -/
def Node.sizeOfEntries : List (Node × Node) → Nat
  | [] => 0
  | (k, v) :: es => k.size + v.size + Node.sizeOfEntries es

end

end ActionSheet.Yaml
