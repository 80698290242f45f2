import ActionSheet.Markup.Attribute

/-!
# Namespaces in scope

A declaration binds a prefix, or the absence of one, to a namespace, from its own tag to the end of
its element. The bindings in scope are a list, the most recent first, so a look-up finds the
innermost tag that declares a prefix, and in it the last declaration. Binding a prefix to the empty
text takes its namespace away.

A namespace is the declared value as it is written: references in it are not expanded.
-/

namespace ActionSheet.Markup

/-- A prefix, or none, and the namespace that it stands for. -/
structure Binding where
  pre : Option (List Char)
  uri : List Char
  deriving DecidableEq, Repr

/-- The bindings in scope, the most recent first. -/
abbrev Scope := List Binding

/-- The namespace that the prefix `xml` always has. -/
def xmlNamespace : List Char := "http://www.w3.org/XML/1998/namespace".toList

/-- The namespace that the prefix `xmlns` always has. -/
def xmlnsNamespace : List Char := "http://www.w3.org/2000/xmlns/".toList

/-- What is in scope outside the root. -/
def Scope.outermost : Scope :=
  [⟨some "xmlns".toList, xmlnsNamespace⟩, ⟨some "xml".toList, xmlNamespace⟩]

/-- The binding that an attribute makes, if it is a declaration that makes one. A key `xmlns:` with
nothing after the colon is a declaration without prefix, but the two reserved namespaces are denied
to it as they are to a prefix. -/
def WrittenAttribute.binding? (a : WrittenAttribute) : Except Cause (Option Binding) :=
  if a.key = "xmlns".toList then .ok (some ⟨none, a.value⟩)
  else if "xmlns:".toList.isPrefixOf a.key then
    let pre := a.key.drop 6
    if pre = "xml".toList then
      if a.value = xmlNamespace then .ok none else .error (.reservedBinding pre a.value)
    else if pre = "xmlns".toList ∨ a.value = xmlNamespace ∨ a.value = xmlnsNamespace then
      .error (.reservedBinding pre a.value)
    else .ok (some ⟨if pre.isEmpty then none else some pre, a.value⟩)
  else .ok none

/-- What is in scope after some attributes. -/
def Scope.declareAll : Scope → List WrittenAttribute → Except Cause Scope
  | scope, [] => .ok scope
  | scope, a :: rest => do
    match ← a.binding? with
    | some b => Scope.declareAll (b :: scope) rest
    | none => Scope.declareAll scope rest

/-- What is in scope inside a tag. -/
def Scope.enter (scope : Scope) (tag : List Char) : Except Cause Scope :=
  scope.declareAll (writtenAttributes false tag).1

/-- The namespace of an element whose name has a given prefix. -/
def Scope.resolve (scope : Scope) (pre : Option (List Char)) : Option (List Char) :=
  (scope.find? (·.pre = pre)).bind fun b => if b.uri.isEmpty then none else some b.uri

end ActionSheet.Markup
