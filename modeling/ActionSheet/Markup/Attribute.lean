import ActionSheet.Markup.Name
import ActionSheet.Markup.Reference

/-!
# Attributes

What follows the name of a tag is read as a row of keys and values. A key begins at the first
character that is no blank, whatever that is, and runs to an equals sign or a blank; a value stands
in quotation marks, and the next key may follow it directly.

The same walk serves two readers. Namespace declarations are collected before the tag is looked at
any further, by a walk that allows a key to come back and that quietly ends at the first attribute
that is not well formed. The attributes of an element are read by a walk that does neither, and
there the references in the values are expanded, one attribute after the other, so that of two
faults in a tag the first one is reported.
-/

namespace ActionSheet.Markup

open Text

/-- An attribute as it is written: its key, where that begins, and its value between the quotation
marks. -/
structure WrittenAttribute where
  key : List Char
  position : Nat
  value : List Char
  deriving DecidableEq, Repr

/-- The front of what follows a tag's name. -/
inductive AttributeScan where
  | done
  | attribute (a : WrittenAttribute) (position : Nat) (rest : List Char)
  | fault (f : AttributeFault)

/-- Whether a character goes on with a key. -/
def isKeyChar (c : Char) : Bool := c ≠ '=' && !isBlank c

/-- The value of an attribute, from what follows its equals sign at a position. -/
def scanValue (key : List Char) (start position : Nat) (s : List Char) : AttributeScan :=
  let position := position + byteLength (s.takeWhile isBlank)
  match s.dropWhile isBlank with
  | [] => .fault (.missingValue position)
  | q :: r =>
    if q = '"' ∨ q = '\'' then
      let value := r.takeWhile (· ≠ q)
      match r.dropWhile (· ≠ q) with
      | [] => .fault (.unclosedQuote (position + 1 + byteLength value) q)
      | _ :: rest => .attribute ⟨key, start, value⟩ (position + 1 + byteLength value + 1) rest
    else .fault (.unquotedValue position)

/-- The first attribute of what stands at a position of a tag. `seen` holds the keys that may not
come again and where they are. -/
def scanAttribute (seen : List (List Char × Nat)) (position : Nat) (s : List Char) :
    AttributeScan :=
  let start := position + byteLength (s.takeWhile isBlank)
  match s.dropWhile isBlank with
  | [] => .done
  | c :: r =>
    let key := c :: r.takeWhile isKeyChar
    let afterKey := r.dropWhile isKeyChar
    let position := start + byteLength key + byteLength (afterKey.takeWhile isBlank)
    match afterKey.dropWhile isBlank with
    | '=' :: r =>
      match seen.lookup key with
      | some previous => .fault (.duplicated start previous)
      | none => scanValue key start (position + 1) r
    | _ => .fault (.missingEquals position)

theorem length_of_scanValue {key s rest : List Char} {start position p : Nat}
    {a : WrittenAttribute} (h : scanValue key start position s = .attribute a p rest) :
    rest.length < s.length := by
  have hs := List.IsSuffix.length_le (List.dropWhile_suffix (p := isBlank) (l := s))
  unfold scanValue at h
  dsimp only at h
  split at h
  · cases h
  · next q r hq =>
    rw [hq] at hs
    have hr := List.IsSuffix.length_le (List.dropWhile_suffix (p := (· ≠ q)) (l := r))
    split at h
    · split at h
      · cases h
      · next hd =>
        rw [hd] at hr
        cases h
        simp only [List.length_cons] at hs hr
        omega
    · cases h

theorem length_of_scanAttribute {seen : List (List Char × Nat)} {s rest : List Char}
    {position p : Nat} {a : WrittenAttribute}
    (h : scanAttribute seen position s = .attribute a p rest) : rest.length < s.length := by
  have hs := List.IsSuffix.length_le (List.dropWhile_suffix (p := isBlank) (l := s))
  unfold scanAttribute at h
  dsimp only at h
  split at h
  · cases h
  · next c r hc =>
    rw [hc] at hs
    have hr := List.IsSuffix.length_le (List.dropWhile_suffix (p := isKeyChar) (l := r))
    have hk := List.IsSuffix.length_le
      (List.dropWhile_suffix (p := isBlank) (l := r.dropWhile isKeyChar))
    split at h
    · next he =>
      rw [he] at hk
      split at h
      · cases h
      · have := length_of_scanValue h
        simp only [List.length_cons] at hs hk
        omega
    · cases h

/-- The attributes of what stands at a position of a tag, and the fault that ends them if there is
one. Keys may come back unless `unique` is asked for. -/
def walkAttributes (unique : Bool) (seen : List (List Char × Nat)) (position : Nat)
    (s : List Char) : List WrittenAttribute × Option AttributeFault :=
  match _h : scanAttribute seen position s with
  | .done => ([], none)
  | .fault f => ([], some f)
  | .attribute a p rest =>
    let seen := if unique then (a.key, a.position) :: seen else seen
    let (more, fault) := walkAttributes unique seen p rest
    (a :: more, fault)
termination_by s.length
decreasing_by exact length_of_scanAttribute _h

/-- The attributes of a tag as they are written. -/
def writtenAttributes (unique : Bool) (tag : List Char) :
    List WrittenAttribute × Option AttributeFault :=
  walkAttributes unique [] (byteLength (tagName tag)) (tagRest tag)

/-- An attribute of an element. -/
structure Attribute where
  pre : Option String
  name : String
  value : String
  deriving DecidableEq, Repr

/-- Whether an attribute declares a namespace. -/
def Attribute.isDeclaration (a : Attribute) : Bool :=
  match a.pre with
  | some p => p == "xmlns"
  | none => a.name == "xmlns"

/-- The attribute that is written so. -/
def WrittenAttribute.read (a : WrittenAttribute) : Except Cause Attribute :=
  match expand a.value with
  | .error f => .error (.badReference f)
  | .ok value =>
    let name := Name.ofChars a.key
    .ok ⟨name.pre.map String.ofList, String.ofList name.part, String.ofList value⟩

/-- The attributes of a tag, in the order in which they are written. -/
def readAttributes (tag : List Char) : Except Cause (List Attribute) := do
  let (written, fault) := writtenAttributes true tag
  let attributes ← written.mapM WrittenAttribute.read
  match fault with
  | some f => .error (.badAttribute f)
  | none => return attributes

end ActionSheet.Markup
