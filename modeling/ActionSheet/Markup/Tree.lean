import ActionSheet.Markup.Element
import ActionSheet.Markup.Event

/-!
# Reading a document

The tree grows from the events. Elements that are open wait on a stack until their end, and an
element that ends becomes a child of the one below it, or the root. The depth of the stack is
bounded, because whoever walks the tree later does so by recursion; an element that opens and
closes in one tag waits for nothing and is not counted.

A second root is noticed at its end, so whatever is wrong inside it is reported first.
-/

namespace ActionSheet.Markup

/-- How many elements may be open at once. -/
def maxDepth : Nat := 1024

/-- An element that is open, with the children it has so far, the latest first. -/
structure Frame where
  uri : Option String
  name : String
  attributes : List Attribute
  children : List Element

/-- The element of a frame that closes. -/
def Frame.element (f : Frame) : Element :=
  ⟨f.uri, f.name, f.attributes, f.children.reverse⟩

/-- A tree that is growing: its open elements, the innermost first, and its root once that has
closed. -/
structure Growth where
  stack : List Frame
  root : Option Element

namespace Growth

/-- Nothing yet. -/
def initial : Growth := ⟨[], none⟩

/-- The frame of a tag. -/
def openFrame (uri : Option String) (tag : List Char) : Except Cause Frame := do
  let attributes ← readAttributes tag
  return ⟨uri, String.ofList (Name.ofChars (tagName tag)).part, attributes, []⟩

/-- The growth with an element added that is complete. -/
def attach (g : Growth) (e : Element) : Except Cause Growth :=
  match g.stack, g.root with
  | f :: rest, _ => .ok { g with stack := { f with children := e :: f.children } :: rest }
  | [], none => .ok { g with root := some e }
  | [], some _ => .error (.secondRoot e.name)

/-- The growth after an event. -/
def step (g : Growth) : Event → Except Cause Growth
  | .start uri tag =>
    if maxDepth ≤ g.stack.length then .error (.tooDeep maxDepth)
    else do
      let f ← openFrame uri tag
      return { g with stack := f :: g.stack }
  | .empty uri tag => do
    let f ← openFrame uri tag
    g.attach f.element
  | .finish =>
    match g.stack with
    | [] => .error .unexpectedEnd
    | f :: rest => { g with stack := rest }.attach f.element
  | .text content =>
    if g.stack.isEmpty && !content.all Text.isAsciiBlank then .error .textOutsideRoot else .ok g
  | .cdata => if g.stack.isEmpty then .error .cdataOutsideRoot else .ok g
  | .skipped => .ok g

/-- The tree that has grown when the text ends. -/
def finish (g : Growth) : Except Fault Element :=
  match g.stack, g.root with
  | f :: _, _ => .error (.unclosedElement f.name)
  | [], some e => .ok e
  | [], none => .error .missingRoot

end Growth

/-- The tree of a trail of events, from what has grown before them. -/
def grow (g : Growth) : Trail Event → Except Fault Element
  | .done => g.finish
  | .fault position cause => .error (.markup position cause)
  | .item e position rest =>
    match g.step e with
    | .error cause => .error (.markup position cause)
    | .ok g' => grow g' rest

/-- A text without the byte order mark in front of it. Positions do not count the mark. -/
def withoutMark : List Char → List Char
  | '\uFEFF' :: r => r
  | s => s

/-- The root element of a document. -/
def parse (s : String) : Except Fault Element :=
  grow Growth.initial (Event.trail (withoutMark s.toList))

end ActionSheet.Markup
