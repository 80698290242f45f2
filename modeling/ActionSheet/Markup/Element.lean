import ActionSheet.Markup.Attribute

/-!
# The element tree

Only elements and their attributes are kept of a document. An element knows the namespace of its
name, and all of its attributes in the order in which they are written, declarations included; the
look-ups below take the first that fits.

Descendants are listed in document order by a walk that keeps a list of what is still to be
visited.
-/

namespace ActionSheet.Markup

/-- An element. -/
structure Element where
  uri : Option String
  name : String
  attributes : List Attribute
  children : List Element
  deriving Repr

namespace Element

mutual

/-- Whether two elements are equal, subtrees included. -/
def equal : Element → Element → Bool
  | ⟨u, n, as, cs⟩, ⟨u', n', as', cs'⟩ =>
    decide (u = u') && decide (n = n') && decide (as = as') && equalAll cs cs'

/-- Whether two lists of elements are equal. -/
def equalAll : List Element → List Element → Bool
  | [], [] => true
  | e :: es, e' :: es' => equal e e' && equalAll es es'
  | _, _ => false

end

instance : BEq Element := ⟨equal⟩

mutual

theorem equal_iff : ∀ e e' : Element, equal e e' = true ↔ e = e'
  | ⟨_, _, _, children⟩, ⟨_, _, _, children'⟩ => by
    rw [equal, Bool.and_eq_true, Bool.and_eq_true, Bool.and_eq_true, decide_eq_true_iff,
      decide_eq_true_iff, decide_eq_true_iff, equalAll_iff children children', mk.injEq, and_assoc,
      and_assoc]

theorem equalAll_iff : ∀ es es' : List Element, equalAll es es' = true ↔ es = es'
  | [], [] => by simp [equalAll]
  | [], _ :: _ => by simp [equalAll]
  | _ :: _, [] => by simp [equalAll]
  | e :: es, e' :: es' => by simp [equalAll, equal_iff e e', equalAll_iff es es']

end

instance : DecidableEq Element := fun e e' => decidable_of_iff _ (equal_iff e e')

/-- Whether an element has a given namespace and local name; an element without namespace has
none, not even the empty one. -/
def isNamed (e : Element) (uri name : String) : Bool :=
  e.name == name && e.uri == some uri

/-- Whether an element has child elements. -/
def hasElements (e : Element) : Bool := !e.children.isEmpty

/-- The value of an attribute without prefix. -/
def attribute? (e : Element) (name : String) : Option String :=
  (e.attributes.find? fun a => a.pre.isNone && a.name == name).map (·.value)

/-- The first attribute that declares no namespace. -/
def firstAttribute? (e : Element) : Option Attribute :=
  e.attributes.find? (!·.isDeclaration)

/-- The namespace that an element itself declares for a prefix. -/
def declaredNamespace? (e : Element) (pre : String) : Option String :=
  (e.attributes.find? fun a => a.pre == some "xmlns" && a.name == pre).map (·.value)

/-- The first child of a given name. -/
def child? (e : Element) (uri name : String) : Option Element :=
  e.children.find? (·.isNamed uri name)

mutual

/-- The number of elements in a subtree. -/
def size : Element → Nat
  | ⟨_, _, _, cs⟩ => sizeAll cs + 1

/-- The number of elements in some subtrees. -/
def sizeAll : List Element → Nat
  | [] => 0
  | e :: es => size e + sizeAll es

end

theorem size_eq (e : Element) : e.size = sizeAll e.children + 1 := by
  cases e
  rw [size]

theorem sizeAll_append (es fs : List Element) : sizeAll (es ++ fs) = sizeAll es + sizeAll fs := by
  induction es with
  | nil => simp [sizeAll]
  | cons e es ih => simp [sizeAll, ih, Nat.add_assoc]

/-- The elements of some subtrees, in document order: each is followed by what is below it. -/
def visit : List Element → List Element
  | [] => []
  | e :: rest => e :: visit (e.children ++ rest)
termination_by es => sizeAll es
decreasing_by
  rw [sizeAll_append, sizeAll, size_eq]
  omega

/-- All elements below an element, in document order. -/
def descendants (e : Element) : List Element :=
  visit e.children

end Element

end ActionSheet.Markup
