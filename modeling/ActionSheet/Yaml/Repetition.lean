import ActionSheet.Record.Shape
import ActionSheet.Yaml.Source

/-!
# The limit of repetition

An alias takes a few characters and can stand for a large node, so a short text could keep a reader
busy for long. A document is therefore read only where the aliases that its reader follows are not
more than a hundred times the size of the document. A reader follows an alias wherever it looks at
it: also where it stands for a key, and once more every time that it stands inside a node that is
itself repeated. What a reader passes over does not count.
-/

namespace ActionSheet.Yaml

open Record (Shape)

/-- How many aliases are followed from a value to what it stands for. -/
def Value.hops (v : Value) : Nat :=
  match v.node with
  | .alias _ => 1
  | _ => 0

/-- The sum of some numbers. -/
def total (ns : List Nat) : Nat := ns.foldr (· + ·) 0

mutual

/-- How many aliases a reader follows that looks into a shape. -/
def followed : Shape → Value → Nat
  | .scalar, v => v.hops
  | .list element, v => v.hops + total (v.items.map (followed element))
  | .record fields, v =>
    v.hops + total (v.entries.map (·.1.hops)) + followedFields fields v.entries

/-- How many of them it follows in the values of the known fields. -/
def followedFields : List (String × Shape) → List (Value × Value) → Nat
  | [], _ => 0
  | (name, shape) :: fields, entries =>
    total ((entries.filter (·.1.keyText? == some name)).map fun e => followed shape e.2)
      + followedFields fields entries

end

/-- How many aliases a reader may follow for every mark of a document. -/
def repetitionLimit : Nat := 100

/-- What a reader that looks into a shape makes of a document. -/
def Document.read? {β : Type} (shape : Shape) (read : Value → Option β) (d : Document) : Option β :=
  if followed shape d.value ≤ repetitionLimit * d.root.size then read d.value else none

end ActionSheet.Yaml
