import ActionSheet.Markup.Scope
import ActionSheet.Markup.Token

/-!
# Elements as they open and close

Pieces become events when they are seen against the tags that are still open: an end tag has to
name the innermost of them, and a start tag is given the namespace that its name has there. The
reader keeps the names of the open tags, each with what was in scope outside it, so that the end of
an element restores that scope.
-/

namespace ActionSheet.Markup

/-- What happens to the tree at a piece of the document. -/
inductive Event where
  /-- An element opens. -/
  | start (uri : Option String) (tag : List Char)
  /-- An element opens and closes. -/
  | empty (uri : Option String) (tag : List Char)
  /-- The innermost element closes. -/
  | finish
  | text (content : List Char)
  | cdata
  /-- Nothing: a comment, an instruction or a document type. -/
  | skipped
  deriving DecidableEq, Repr

/-- A tag that is open: its name, and what was in scope outside it. -/
structure OpenTag where
  name : List Char
  outside : Scope
  deriving DecidableEq, Repr

/-- Where the reader stands: what is in scope, and the open tags, the innermost first. -/
structure Reader where
  scope : Scope
  opened : List OpenTag
  deriving DecidableEq, Repr

namespace Reader

/-- The reader before the first piece. -/
def initial : Reader := ⟨Scope.outermost, []⟩

/-- The namespace of a tag, in the scope of its own declarations. -/
def namespaceOf (scope : Scope) (tag : List Char) : Option String :=
  (scope.resolve (Name.ofChars (tagName tag)).pre).map String.ofList

/-- The event of a piece, and the reader after it. -/
def step (r : Reader) : Token → Except Cause (Event × Reader)
  | .text content => .ok (.text content, r)
  | .cdata => .ok (.cdata, r)
  | .comment | .instruction | .doctype => .ok (.skipped, r)
  | .opening tag => do
    let scope ← r.scope.enter tag
    return (.start (namespaceOf scope tag) tag, ⟨scope, ⟨tagName tag, r.scope⟩ :: r.opened⟩)
  | .empty tag => do
    let scope ← r.scope.enter tag
    return (.empty (namespaceOf scope tag) tag, r)
  | .closing name =>
    match r.opened with
    | [] => .error (.unmatchedEnd (String.ofList name))
    | t :: rest =>
      if t.name = name then .ok (.finish, ⟨t.outside, rest⟩)
      else .error (.mismatchedEnd (String.ofList t.name) (String.ofList name))

end Reader

/-- The trail of what a machine makes of the items of a trail; it ends where the machine refuses an
item. -/
def Trail.transform {σ α β : Type} (step : σ → α → Except Cause (β × σ)) :
    σ → Trail α → Trail β
  | _, .done => .done
  | _, .fault position cause => .fault position cause
  | s, .item a position rest =>
    match step s a with
    | .error cause => .fault position cause
    | .ok (b, s') => .item b position (rest.transform step s')

/-- The events of a text. -/
def Event.trail (s : List Char) : Trail Event :=
  (Token.trail 0 s).transform Reader.step Reader.initial

end ActionSheet.Markup
