import ActionSheet.Record.Source
import ActionSheet.Text.Decimal
import ActionSheet.Yaml.Grammar

/-!
# YAML as a source of records

A scalar has no type of its own: it is a text for a reader who wants a text, whatever it looks like,
and a plain one is an integer or nothing for a reader who wants that. Where nothing is written, a
reader of lists finds an empty list and a reader of records one without fields. A record is always
a mapping, and any scalar can be a key.
-/

namespace ActionSheet.Yaml

/-- A node together with the named nodes of its document. -/
structure Value where
  named : List (Nat × Node)
  node : Node

/-- The node itself, or what it is an alias of. -/
def Value.target (v : Value) : Node :=
  match v.node with
  | .alias i => (v.named.lookup i).getD .empty
  | n => n

/-- The root of a document. -/
def Document.value (d : Document) : Value := ⟨d.named, d.root⟩

/-- The items of a value that is a sequence. -/
def Value.items (v : Value) : List Value :=
  match v.target with
  | .sequence items => items.map (⟨v.named, ·⟩)
  | _ => []

/-- The keys and values of a value that is a mapping. -/
def Value.entries (v : Value) : List (Value × Value) :=
  match v.target with
  | .mapping entries => entries.map fun (key, value) => (⟨v.named, key⟩, ⟨v.named, value⟩)
  | _ => []

/-! ## Integers -/

/-- Digits behind the mark of a base. -/
def basedDigits? : List Char → Option Nat
  | '0' :: 'x' :: ds => Text.number? 16 ds
  | '0' :: 'o' :: ds => Text.number? 8 ds
  | '0' :: 'b' :: ds => Text.number? 2 ds
  | _ => none

/-- Decimal digits without a zero in front of others. -/
def decimalDigits? : List Char → Option Nat
  | '0' :: _ :: _ => none
  | ds => Text.number? 10 ds

/-- The integer that a text spells: an optional sign, and digits in decimal or behind the mark of a
base. -/
def integer? (s : List Char) : Option Int :=
  let magnitude? (ds : List Char) : Option Nat := basedDigits? ds <|> decimalDigits? ds
  match s with
  | '+' :: ds => (magnitude? ds).map Int.ofNat
  | '-' :: ds => (magnitude? ds).map fun n => -Int.ofNat n
  | ds => (magnitude? ds).map Int.ofNat

/-! ## Scalars and what they say -/

/-- The tag of texts that stand for nothing. -/
def nullTag : String := "tag:yaml.org,2002:null"

/-- The tag of integers. -/
def integerTag : String := "tag:yaml.org,2002:int"

/-- Whether a text is one of those that stand for nothing. -/
def isNullWord (s : String) : Bool :=
  s == "~" || s == "null" || s == "Null" || s == "NULL"

/-- The integer of a scalar, which has to be plain, or literal and tagged as an integer. -/
def Scalar.integer? (s : Scalar) : Option Int :=
  if s.style == .plain || (s.style == .literal && s.tag == some integerTag) then
    Yaml.integer? s.text.toList
  else none

/-- Whether a scalar stands for nothing. A scalar that is tagged as standing for nothing has to be
spelled so. -/
def Scalar.absent? (s : Scalar) : Option Bool :=
  if s.style != .plain then some false
  else
    match s.tag with
    | none => some (s.text.isEmpty || isNullWord s.text)
    | some tag =>
      if tag == nullTag then (if isNullWord s.text then some true else none) else some false

/-- Whether a scalar is what stands where nothing is written. -/
def Scalar.isUnwritten (s : Scalar) : Bool := s.style == .plain && s.text.isEmpty

/-- The text of a key. -/
def Value.keyText? (v : Value) : Option String :=
  match v.target with
  | .scalar s => some s.text
  | _ => none

instance : Source Value where
  text? := Value.keyText?
  integer? v :=
    match v.target with
    | .scalar s => s.integer?
    | _ => none
  absent? v :=
    match v.target with
    | .scalar s => s.absent?
    | _ => some false
  items? v :=
    match v.target with
    | .sequence _ => some v.items
    | .scalar s => if s.isUnwritten then some [] else none
    | _ => none
  layout? v :=
    match v.target with
    | .mapping _ => some (.named (v.entries.map fun (key, value) => (key.keyText?, value)))
    | .scalar s => if s.isUnwritten then some (.named []) else none
    | _ => none

end ActionSheet.Yaml
