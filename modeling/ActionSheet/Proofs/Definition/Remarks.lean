import ActionSheet.Definition
import Mathlib.Data.List.Induction

/-!
# The last remark of a kind decides

The remarks about an argument are noted one after the other, and each replaces what was noted of its
kind before. So a field of the argument shows the last element of the group that states its kind, and
nothing if there is none. That a remark without a value comes last and empties the field again is a
case of this, and so is that elements of unknown names do not matter.

`get_note` is the step: one element touches the field of its own kind and no other. Everything else
about a group follows from it by induction from the end of the group, where the step was the last one
to be made.
-/

namespace ActionSheet

open Markup

namespace Remark

/-- The local name of the elements that state a remark. -/
def elementName : Remark → String
  | required => "ArgumentRequiredAttribute"
  | target => "ArgumentTargetAttribute"
  | description => "ArgumentDescriptionAttribute"
  | direction => "ArgumentDirectionAttribute"
  | entity => "ArgumentEntityAttribute"

theorem ofElement?_elementName (r : Remark) : ofElement? r.elementName = some r := by
  cases r <;> rfl

theorem ofElement?_eq_some {name : String} {r : Remark} :
    ofElement? name = some r ↔ name = r.elementName := by
  refine ⟨fun h => ?_, fun h => h ▸ ofElement?_elementName r⟩
  unfold ofElement? at h
  split at h <;> cases h <;> rfl

end Remark

namespace Argument

theorem get_set (a : Argument) (value : String) (r r' : Remark) :
    (a.set value r).get r' = if r = r' then value else a.get r' := by
  cases r <;> cases r' <;> rfl

theorem name_set (a : Argument) (value : String) (r : Remark) : (a.set value r).name = a.name := by
  cases r <;> rfl

theorem type_set (a : Argument) (value : String) (r : Remark) : (a.set value r).type = a.type := by
  cases r <;> rfl

theorem eq_of_get {a b : Argument} (hname : a.name = b.name) (htype : a.type = b.type)
    (hget : ∀ r, a.get r = b.get r) : a = b := by
  obtain ⟨name, type, required, direction, target, entity, description⟩ := a
  obtain ⟨name', type', required', direction', target', entity', description'⟩ := b
  cases hname
  cases htype
  cases hget .required
  cases hget .direction
  cases hget .target
  cases hget .entity
  cases hget .description
  rfl

end Argument

namespace Definition

/-! ## One element -/

/-- What an element says: the value of its first attribute that declares no namespace, and nothing
if it has no such attribute. -/
inductive Says (e : Element) : String → Prop
  | first {before after : List Attribute} {a : Attribute} :
      e.attributes = before ++ a :: after → (∀ x ∈ before, x.isDeclaration = true) →
      a.isDeclaration = false → Says e a.value
  | nothing : (∀ x ∈ e.attributes, x.isDeclaration = true) → Says e ""

/-- The value that is noted for an element. -/
def said (e : Element) : String :=
  (e.firstAttribute?.map (·.value)).getD ""

theorem says_said (e : Element) : Says e (said e) := by
  rw [said]
  cases h : e.firstAttribute? with
  | none =>
      refine .nothing fun x hx => ?_
      have hnone := List.find?_eq_none.1 h x hx
      simpa using hnone
  | some a =>
      obtain ⟨ha, before, after, heq, hbefore⟩ := List.find?_eq_some_iff_append.1 h
      exact .first heq (by simpa using hbefore) (by simpa using ha)

theorem get_note (a : Argument) (e : Element) (r : Remark) :
    (note a e).get r = if e.name = r.elementName then said e else a.get r := by
  rw [note]
  cases h : Remark.ofElement? e.name with
  | none =>
      have hname : e.name ≠ r.elementName := by
        intro hname
        rw [Remark.ofElement?_eq_some.2 hname] at h
        cases h
      rw [if_neg hname]
  | some remark =>
      have hname : e.name = remark.elementName := Remark.ofElement?_eq_some.1 h
      show (a.set (said e) remark).get r = _
      rw [Argument.get_set]
      by_cases hr : remark = r
      · rw [if_pos hr, if_pos (hr ▸ hname)]
      · rw [if_neg hr, if_neg]
        intro hname'
        rw [Remark.ofElement?_eq_some.2 hname'] at h
        exact hr (Option.some.inj h).symm

theorem name_note (a : Argument) (e : Element) : (note a e).name = a.name := by
  rw [note]
  split
  · rfl
  · rw [Argument.name_set]

theorem type_note (a : Argument) (e : Element) : (note a e).type = a.type := by
  rw [note]
  split
  · rfl
  · rw [Argument.type_set]

/-! ## A group of elements -/

theorem name_foldl_note (a : Argument) (es : List Element) : (es.foldl note a).name = a.name := by
  induction es generalizing a with
  | nil => rfl
  | cons e es ih => rw [List.foldl_cons, ih, name_note]

theorem type_foldl_note (a : Argument) (es : List Element) : (es.foldl note a).type = a.type := by
  induction es generalizing a with
  | nil => rfl
  | cons e es ih => rw [List.foldl_cons, ih, type_note]

/-- What the elements of a group come to for one kind of remark: what the last element of the kind
says. -/
inductive IsStated (r : Remark) (es : List Element) : String → Prop
  | last {before after : List Element} {e : Element} {value : String} :
      es = before ++ e :: after → e.name = r.elementName →
      (∀ x ∈ after, x.name ≠ r.elementName) → Says e value → IsStated r es value
  | never : (∀ e ∈ es, e.name ≠ r.elementName) → IsStated r es ""

theorem IsStated.concat {r : Remark} {es : List Element} {value : String} {e : Element}
    (h : IsStated r es value) (he : e.name ≠ r.elementName) : IsStated r (es ++ [e]) value := by
  have hsingle : ∀ x ∈ [e], x.name ≠ r.elementName := by
    simpa using he
  cases h with
  | @last before after e' _ heq hname hafter hsays =>
      have hsplit : es ++ [e] = before ++ e' :: (after ++ [e]) := by
        rw [heq, List.append_assoc, List.cons_append]
      exact .last hsplit hname (List.forall_mem_append.2 ⟨hafter, hsingle⟩) hsays
  | never hnever => exact .never (List.forall_mem_append.2 ⟨hnever, hsingle⟩)

theorem isStated_foldl_note (r : Remark) {a : Argument} (ha : a.get r = "") (es : List Element) :
    IsStated r es ((es.foldl note a).get r) := by
  induction es using List.reverseRecOn with
  | nil => exact ha ▸ .never nofun
  | append_singleton es e ih =>
      rw [List.foldl_append, List.foldl_cons, List.foldl_nil, get_note]
      split
      · next hname => exact .last rfl hname nofun (says_said e)
      · next hname => exact ih.concat hname

/-- The elements of one kind. -/
def ofKind (r : Remark) (es : List Element) : List Element :=
  es.filter (·.name = r.elementName)

theorem ofKind_append (r : Remark) (es fs : List Element) :
    ofKind r (es ++ fs) = ofKind r es ++ ofKind r fs :=
  List.filter_append es fs

theorem ofKind_eq_nil {r : Remark} {es : List Element} (h : ∀ e ∈ es, e.name ≠ r.elementName) :
    ofKind r es = [] :=
  List.filter_eq_nil_iff.2 fun e he => by simpa using h e he

/-- The elements of its own kind are all that a field depends on. -/
theorem get_foldl_ofKind (r : Remark) (a : Argument) (es : List Element) :
    ((ofKind r es).foldl note a).get r = (es.foldl note a).get r := by
  induction es using List.reverseRecOn with
  | nil => rfl
  | append_singleton es e ih =>
      rw [ofKind_append, List.foldl_append, List.foldl_append, List.foldl_cons, List.foldl_nil, get_note]
      by_cases hname : e.name = r.elementName
      · have hsingle : ofKind r [e] = [e] := List.filter_cons_of_pos (by simpa using hname)
        rw [hsingle, List.foldl_cons, List.foldl_nil, get_note, if_pos hname, if_pos hname]
      · have hsingle : ofKind r [e] = [] := ofKind_eq_nil (by simpa using hname)
        rw [hsingle, List.foldl_nil, if_neg hname, ih]

/-- Two groups have the same elements of every kind, each kind in the same order. -/
def SameRemarks (es es' : List Element) : Prop :=
  ∀ r, ofKind r es = ofKind r es'

theorem foldl_note_congr {es es' : List Element} (h : SameRemarks es es') (a : Argument) :
    es.foldl note a = es'.foldl note a := by
  refine Argument.eq_of_get ?_ ?_ fun r => ?_
  · rw [name_foldl_note, name_foldl_note]
  · rw [type_foldl_note, type_foldl_note]
  · rw [← get_foldl_ofKind, h r, get_foldl_ofKind]

theorem sameRemarks_insert {before after unknown : List Element}
    (h : ∀ e ∈ unknown, ∀ r : Remark, e.name ≠ r.elementName) :
    SameRemarks (before ++ after) (before ++ unknown ++ after) := by
  intro r
  have hnone : ofKind r unknown = [] := ofKind_eq_nil fun e he => h e he r
  rw [ofKind_append, ofKind_append, ofKind_append, hnone, List.append_nil]

/-! ## An argument property -/

/-- The remarks about a property are the elements in the first of its children that is a group, if it
has one. -/
inductive HasRemarks (d : Definition) (p : Element) : List Element → Prop
  | group {before after : List Element} {g : Element} :
      p.children = before ++ g :: after →
      (∀ c ∈ before, c.isNamed d.core "Property.Attributes" = false) →
      g.isNamed d.core "Property.Attributes" = true → HasRemarks d p g.children
  | none : (∀ c ∈ p.children, c.isNamed d.core "Property.Attributes" = false) → HasRemarks d p []

theorem hasRemarks_iff {d : Definition} {p : Element} {es : List Element} :
    d.HasRemarks p es ↔ (d.remarks? p).getD [] = es := by
  rw [remarks?, Element.child?]
  constructor
  · rintro (⟨heq, hbefore, hg⟩ | hnone)
    · rw [heq, List.find?_append, List.find?_eq_none.2 (by simpa using hbefore), Option.none_or,
        List.find?_cons, hg]
      rfl
    · rw [List.find?_eq_none.2 (by simpa using hnone)]
      rfl
  · rintro rfl
    cases h : p.children.find? (·.isNamed d.core "Property.Attributes") with
    | none => exact .none (by simpa using List.find?_eq_none.1 h)
    | some g =>
        obtain ⟨hg, before, after, heq, hbefore⟩ := List.find?_eq_some_iff_append.1 h
        exact .group heq (by simpa using hbefore) hg

/-- The remarks that are noted about a property. -/
def notedRemarks (d : Definition) (p : Element) : List Element :=
  if d.isAnnotated then (d.remarks? p).getD [] else []

theorem argument_of_attributes {d : Definition} {p : Element} {name type : String}
    (hname : p.attribute? "Name" = some name) (htype : p.attribute? "Type" = some type) :
    d.argument p = .ok ((d.notedRemarks p).foldl note { name, type }) := by
  rw [argument, requiredAttribute, requiredAttribute, hname, htype, notedRemarks]
  cases d.isAnnotated <;> rfl

theorem attributes_of_argument {d : Definition} {p : Element} {a : Argument}
    (h : d.argument p = .ok a) :
    p.attribute? "Name" = some a.name ∧ p.attribute? "Type" = some a.type := by
  cases hname : p.attribute? "Name" with
  | none =>
      rw [argument, requiredAttribute, hname] at h
      cases h
  | some name =>
      cases htype : p.attribute? "Type" with
      | none =>
          rw [argument, requiredAttribute, requiredAttribute, hname, htype] at h
          cases h
      | some type =>
          rw [argument_of_attributes hname htype] at h
          cases h
          rw [name_foldl_note, type_foldl_note]
          exact ⟨rfl, rfl⟩

theorem argument_eq {d : Definition} {p : Element} {a : Argument} (h : d.argument p = .ok a) :
    a = (d.notedRemarks p).foldl note { name := a.name, type := a.type } := by
  obtain ⟨hname, htype⟩ := attributes_of_argument h
  rw [argument_of_attributes hname htype] at h
  exact (Except.ok.inj h).symm

theorem notedRemarks_eq {d : Definition} {p : Element} {es : List Element} {uri : String}
    (hmark : d.root.declaredNamespace? d.annotationPrefix = some uri) (h : d.HasRemarks p es) :
    d.notedRemarks p = es := by
  rw [notedRemarks, isAnnotated, annotationNamespace, hmark, hasRemarks_iff.1 h]
  rfl

/-- In a definition whose root declares the annotation prefix, each remark about an argument is what
the last element of its kind says, among the remarks of the property, and the name and the type are
those of the property. So nothing changes while the elements of every kind stay the same in the same
order, wherever they stand and whatever stands between them. -/
theorem last_remark_decides {d : Definition} {p : Element} {a : Argument} {uri : String}
    (hmark : d.root.declaredNamespace? d.annotationPrefix = some uri) (h : d.argument p = .ok a) :
    (∃ es, d.HasRemarks p es ∧ ∀ r : Remark, IsStated r es (a.get r)) ∧
    p.attribute? "Name" = some a.name ∧ p.attribute? "Type" = some a.type ∧
    (∀ (d' : Definition) (p' : Element) (uri' : String) (es es' : List Element),
      d'.root.declaredNamespace? d'.annotationPrefix = some uri' →
      p'.attributes = p.attributes → d.HasRemarks p es → d'.HasRemarks p' es' →
      SameRemarks es es' → d'.argument p' = .ok a) ∧
    ∀ before unknown after : List Element,
      (∀ e ∈ unknown, ∀ r : Remark, e.name ≠ r.elementName) →
      SameRemarks (before ++ after) (before ++ unknown ++ after) := by
  obtain ⟨hname, htype⟩ := attributes_of_argument h
  have ha := argument_eq h
  refine ⟨⟨_, hasRemarks_iff.2 rfl, fun r => ?_⟩, hname, htype, ?_, ?_⟩
  · rw [ha, notedRemarks_eq hmark (hasRemarks_iff.2 rfl)]
    exact isStated_foldl_note r (by cases r <;> rfl) _
  · intro d' p' uri' es es' hmark' hattributes hes hes' hsame
    have hname' : p'.attribute? "Name" = some a.name := by
      rw [Element.attribute?, hattributes]
      exact hname
    have htype' : p'.attribute? "Type" = some a.type := by
      rw [Element.attribute?, hattributes]
      exact htype
    rw [argument_of_attributes hname' htype', notedRemarks_eq hmark' hes',
      ← foldl_note_congr hsame, ← notedRemarks_eq hmark hes, ← ha]
  · exact fun before unknown after hunknown => sameRemarks_insert hunknown

/-- A property with two remarks of one kind, the later of which has no value, and with a remark that
declares a namespace before its value. -/
def remarkedProperty : Element :=
  ⟨some "u", "Property", [⟨none, "Name", "n"⟩, ⟨none, "Type", "t"⟩],
    [⟨some "u", "Property.Attributes", [],
      [⟨some "v", "ArgumentDescriptionAttribute", [⟨none, "Value", "old"⟩], []⟩,
        ⟨some "v", "ArgumentRequiredAttribute",
          [⟨some "xmlns", "q", "w"⟩, ⟨none, "Value", "True"⟩], []⟩,
        ⟨none, "ArgumentDescriptionAttribute", [], []⟩]⟩]⟩

def remarkedDefinition : Definition :=
  ⟨⟨none, "r", [⟨some "xmlns", "m", "v"⟩], [remarkedProperty]⟩, "u", "m"⟩

theorem last_remark_decides_repeated :
    remarkedDefinition.root.declaredNamespace? remarkedDefinition.annotationPrefix = some "v" ∧
      remarkedDefinition.argument remarkedProperty =
        .ok { name := "n", type := "t", required := "True" } ∧
      ∃ es, remarkedDefinition.HasRemarks remarkedProperty es ∧
        IsStated .required es "True" ∧ IsStated .description es "" := by
  have hmark : remarkedDefinition.root.declaredNamespace? remarkedDefinition.annotationPrefix =
      some "v" := by
    decide
  have h : remarkedDefinition.argument remarkedProperty =
      .ok { name := "n", type := "t", required := "True" } := rfl
  obtain ⟨es, hes, hstated⟩ := (last_remark_decides hmark h).1
  exact ⟨hmark, h, es, hes, hstated .required, hstated .description⟩

end Definition

end ActionSheet
