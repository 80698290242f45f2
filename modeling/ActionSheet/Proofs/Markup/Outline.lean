import ActionSheet.Proofs.Markup.Lexical
import Mathlib.Data.List.Forall2

/-!
# The outline of a document

An outline is the tree of the tags of a text, with nothing resolved: what one gets by matching each
start tag with its end tag. An element of the parsed tree is found in the outline at the same
address, and there one can see its tag and the tags around it. Every statement about how a
declaration reaches an element is a statement about that path.

`exists_outline` reads an outline out of the walk of a tree. It is an induction over the tree: the
walk of an element fixes the marks it came from one after the other, and the marks fix the outline.
-/

namespace ActionSheet.Markup

/-- A tree of tags. -/
inductive Outline where
  | node (tag : Tag) (children : List Outline)

namespace Outline

def tag : Outline → Tag
  | node tag _ => tag

def children : Outline → List Outline
  | node _ children => children

mutual

/-- The marks of an outline in document order. -/
def walk : Outline → List (Mark Tag)
  | node tag children => .opened tag :: (walkAll children ++ [.closed])

def walkAll : List Outline → List (Mark Tag)
  | [] => []
  | o :: os => walk o ++ walkAll os

end

mutual

/-- No outline is the front of the marks of another, so marks are those of one outline at most. -/
theorem walk_append_inj : ∀ (o o' : Outline) {ms ms' : List (Mark Tag)},
    walk o ++ ms = walk o' ++ ms' → o = o' ∧ ms = ms'
  | node tag os, node tag' os', ms, ms', h => by
      rw [walk, walk, List.cons_append, List.cons_append, List.append_assoc, List.append_assoc] at h
      obtain ⟨htag, h⟩ := List.cons.inj h
      obtain ⟨rfl, rfl⟩ := walkAll_append_inj os os' h
      rw [Mark.opened.inj htag]
      exact ⟨rfl, rfl⟩

theorem walkAll_append_inj : ∀ (os os' : List Outline) {ms ms' : List (Mark Tag)},
    walkAll os ++ .closed :: ms = walkAll os' ++ .closed :: ms' → os = os' ∧ ms = ms'
  | [], [], ms, ms', h => ⟨rfl, (List.cons.inj h).2⟩
  | [], node tag' os' :: more', ms, ms', h => by
      rw [walkAll, walkAll, walk] at h
      cases h
  | node tag os :: more, [], ms, ms', h => by
      rw [walkAll, walkAll, walk] at h
      cases h
  | o :: os, o' :: os', ms, ms', h => by
      rw [walkAll, walkAll, List.append_assoc, List.append_assoc] at h
      obtain ⟨rfl, hrest⟩ := walk_append_inj o o' h
      obtain ⟨rfl, rfl⟩ := walkAll_append_inj os os' hrest
      exact ⟨rfl, rfl⟩

end

theorem walk_injective {o o' : Outline} (h : walk o = walk o') : o = o' := by
  have hnil : walk o ++ [] = walk o' ++ [] := congrArg (· ++ []) h
  exact (walk_append_inj o o' hnil).1

/-- What stands at an address: the tags around it, the innermost first, and its tag. -/
def place? (around : List Tag) (o : Outline) : List Nat → Option (List Tag × Tag)
  | [] => some (around, o.tag)
  | i :: address => o.children[i]?.bind fun c => place? (o.tag :: around) c address

end Outline

namespace Element

/-- The element at an address: at each step the number of the child to go to. -/
def at? (e : Element) : List Nat → Option Element
  | [] => some e
  | i :: address => e.children[i]?.bind (·.at? address)

/-- What the tag of an element said of it. -/
def label (e : Element) : Label :=
  ⟨e.uri, e.name, .ok e.attributes⟩

end Element

/-- A tree has the shape of an outline, and each of its elements is what its tag says in the tags
around it. -/
def Outline.Describes (around : List Tag) (o : Outline) (e : Element) : Prop :=
  ∀ address, (e.at? address).map (·.label) =
    (o.place? around address).map fun (around, tag) => .inScope around tag

namespace Outline

theorem describes_node {around : List Tag} {tag : Tag} {os : List Outline} {uri : Option String}
    {name : String} {attributes : List Attribute} {es : List Element}
    (hlabel : ⟨uri, name, .ok attributes⟩ = Label.inScope around tag)
    (hchildren : List.Forall₂ (Describes (tag :: around)) os es) :
    Describes around (node tag os) ⟨uri, name, attributes, es⟩ := by
  intro address
  cases address with
  | nil => exact congrArg some hlabel
  | cons i address =>
      show ((es[i]?.bind (·.at? address)).map (·.label)) =
        (os[i]?.bind fun c => place? (tag :: around) c address).map _
      induction hchildren generalizing i with
      | nil => rfl
      | cons h _ ih =>
          cases i with
          | zero => exact h address
          | succ i => exact ih i

mutual

theorem exists_outline : ∀ (e : Element) {around : List Tag} {ms : List (Mark Tag)}
    {rest : List (Mark Label)}, e.walk ++ rest = inScope around ms →
    ∃ o ms', ms = walk o ++ ms' ∧ rest = inScope around ms' ∧ Describes around o e
  | ⟨uri, name, attributes, es⟩, around, ms, rest, h => by
      rw [Element.walk, List.cons_append, List.append_assoc] at h
      match ms with
      | [] => cases h
      | .closed :: ms => cases h
      | .opened tag :: ms =>
          obtain ⟨hlabel, h⟩ := List.cons.inj h
          obtain ⟨os, ms₁, rfl, hclose, hos⟩ := exists_outlines es h
          match ms₁ with
          | [] => cases hclose
          | .opened tag :: ms₁ => cases hclose
          | .closed :: ms₁ =>
              refine ⟨node tag os, ms₁, ?_, (List.cons.inj hclose).2, ?_⟩
              · rw [walk, List.cons_append, List.append_assoc]
                rfl
              · exact describes_node (Mark.opened.inj hlabel) hos

theorem exists_outlines : ∀ (es : List Element) {around : List Tag} {ms : List (Mark Tag)}
    {rest : List (Mark Label)}, Element.walkAll es ++ rest = inScope around ms →
    ∃ os ms', ms = walkAll os ++ ms' ∧ rest = inScope around ms' ∧
      List.Forall₂ (Describes around) os es
  | [], around, ms, rest, h => ⟨[], ms, rfl, h, .nil⟩
  | e :: es, around, ms, rest, h => by
      rw [Element.walkAll, List.append_assoc] at h
      obtain ⟨o, ms₁, rfl, h₁, ho⟩ := exists_outline e h
      obtain ⟨os, ms₂, rfl, h₂, hos⟩ := exists_outlines es h₁
      refine ⟨o :: os, ms₂, ?_, h₂, .cons ho hos⟩
      rw [walkAll, List.append_assoc]

end

end Outline

theorem items?_of_grow {trail : Trail Event} : ∀ {g : Growth} {e : Element},
    grow g trail = .ok e → ∃ events, trail.items? = some events := by
  induction trail with
  | done => exact fun _ => ⟨[], rfl⟩
  | fault position cause =>
      intro g e h
      cases h
  | item x position rest ih =>
      intro g e h
      rw [grow] at h
      split at h
      · cases h
      · obtain ⟨events, hevents⟩ := ih h
        exact ⟨x :: events, by rw [Trail.items?, hevents]; rfl⟩

/-- The outline of a document, and the tree as it reads there. -/
theorem exists_outline_of_parse {s : String} {e : Element} (h : parse s = .ok e) :
    ∃ tokens o, (Token.trail 0 (withoutMark s.toList)).items? = some tokens ∧
      Outline.walk o = tagMarks tokens ∧ o.Describes [] e := by
  obtain ⟨events, hevents⟩ := items?_of_grow h
  obtain ⟨tokens, htokens, hmarks⟩ := marksOf_eq_inScope .outermost hevents
  have hwalk : e.walk ++ [] = inScope [] (tagMarks tokens) := by
    rw [← hmarks, ← Growth.walk_of_run (exists_run_of_parse hevents h)]
    rfl
  obtain ⟨o, ms, hms, hrest, ho⟩ := Outline.exists_outline e hwalk
  have hnil : ms = [] := by
    match ms with
    | [] => rfl
    | .opened tag :: ms => cases hrest
    | .closed :: ms => cases hrest
  rw [hnil, List.append_nil] at hms
  exact ⟨tokens, o, htokens, hms.symm, ho⟩

/-- The namespace of every element is the one of its lexical scope. The elements are named by their
addresses in the outline, which is the tree that the tags of the text form by themselves. What an
element has at its address are its own tag and the tags around it, and only these decide; a
declaration on any other element, ended or yet to come, has no part in it. -/
theorem uri_eq_lexicalNamespace {s : String} {e : Element} (h : parse s = .ok e) :
    ∃ tokens o, (Token.trail 0 (withoutMark s.toList)).items? = some tokens ∧
      Outline.walk o = tagMarks tokens ∧
      ∀ address, (e.at? address).map (·.uri) =
        (o.place? [] address).map fun (around, tag) => lexicalNamespace around tag := by
  obtain ⟨tokens, o, htokens, hwalk, ho⟩ := exists_outline_of_parse h
  refine ⟨tokens, o, htokens, hwalk, fun address => ?_⟩
  have hlabel := congrArg (Option.map Label.uri) (ho address)
  rw [Option.map_map, Option.map_map] at hlabel
  exact hlabel

/-- A text in which a prefix and the default are declared, taken away, shadowed and declared by a
tag that ends at once. -/
def shadowText : String :=
  "<a xmlns='u' xmlns:p='v'><p:b xmlns:p='w' xmlns:='z'/><p:c xmlns=''><d/></p:c></a>"

def shadowRoot : Element :=
  ⟨some "u", "a", [⟨none, "xmlns", "u"⟩, ⟨some "xmlns", "p", "v"⟩],
    [⟨some "w", "b", [⟨some "xmlns", "p", "w"⟩, ⟨some "xmlns", "", "z"⟩], []⟩,
      ⟨some "v", "c", [⟨none, "xmlns", ""⟩], [⟨none, "d", [], []⟩]⟩]⟩

theorem uri_eq_lexicalNamespace_shadowed :
    parse shadowText = .ok shadowRoot ∧
      ∃ tokens o, (Token.trail 0 (withoutMark shadowText.toList)).items? = some tokens ∧
        Outline.walk o = tagMarks tokens ∧
        ∀ address, (shadowRoot.at? address).map (·.uri) =
          (o.place? [] address).map fun (around, tag) => lexicalNamespace around tag := by
  have hroot : parse shadowText = .ok shadowRoot := by
    decide +kernel
  exact ⟨hroot, uri_eq_lexicalNamespace hroot⟩

/-- An empty value takes the default away for everything inside, and only there. -/
example : lexicalNamespace ["p:c xmlns=''".toList, "a xmlns='u'".toList] ['d'] = none := by
  decide +kernel

end ActionSheet.Markup
