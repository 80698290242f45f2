import ActionSheet.Proofs.Definition.Partition
import ActionSheet.Proofs.Markup.Continuation

/-!
# What a rendering depends on

Two runs are compared here, and the question is what one may change between them.

The first is the annotation prefix. It decides whether remarks are read and nothing else: which
properties are arguments, which of them are missing, how many rows there are and what spans them is the
same under every prefix. The reason is that `Split` says everything about a definition but the remarks,
and has no prefix in it (`Split.agree`).

The second is how a document writes its names. `Element.resolved` takes the declarations out of a tree
and forgets which prefix an attribute has. Every look-up that rendering makes commutes with it, so two
documents that are equal under it are rendered alike. The one thing that a declaration is needed for
besides is the mark on the root, and that is a hypothesis.
-/

namespace ActionSheet

open Markup

/-! ## Another prefix -/

/-- Two rows differ at most in the remarks about their arguments. -/
structure Row.SameButRemarks (row row' : Row) : Prop where
  isLeading : row.isLeading = row'.isLeading
  identifying : row.identifying = row'.identifying
  name : row.argument.name = row'.argument.name
  type : row.argument.type = row'.argument.type

theorem Row.sameButRemarks_block (identifying : List String) {as as' : List Argument}
    (h : List.Forall₂ (fun a a' => a.name = a'.name ∧ a.type = a'.type) as as') :
    List.Forall₂ SameButRemarks (block identifying as) (block identifying as') := by
  cases h with
  | nil => exact .nil
  | @cons a a' as as' ha has =>
      obtain ⟨hname, htype⟩ := ha
      have hrest : List.Forall₂ SameButRemarks (as.map following) (as'.map following) := by
        rw [List.forall₂_map_left_iff, List.forall₂_map_right_iff]
        exact has.imp fun _ _ hb => ⟨rfl, rfl, hb.1, hb.2⟩
      rw [block, block, has.length_eq]
      refine .cons ?_ hrest
      cases identifying.isEmpty with
      | true => exact ⟨rfl, rfl, hname, htype⟩
      | false => exact ⟨rfl, rfl, hname, htype⟩

/-- No row says anything about its argument but its name and its type. -/
def Rendering.IsPlain (r : Rendering) : Prop :=
  ∀ row ∈ r.rows, ∀ remark : Remark, row.argument.get remark = ""

namespace Definition

/-- What is shown of some properties and what is missing is the same for every definition, but for the
remarks. -/
theorem Split.agree {d d' : Definition} {i : Nat} {ps : List Element} {as as' : List Argument}
    {xs xs' : List SkippedArgument} (h : Split d i ps as xs) (h' : Split d' i ps as' xs') :
    List.Forall₂ (fun a a' => a.name = a'.name ∧ a.type = a'.type) as as' ∧ xs = xs' := by
  -- Whether a property is complete is its own affair, so the two definitions never part ways.
  induction h generalizing as' xs' with
  | nil =>
      cases h'
      exact ⟨.nil, rfl⟩
  | @shown i p a ps as xs hcomplete harg _ ih =>
      cases h' with
      | shown _ harg' hrest =>
          obtain ⟨has, hxs⟩ := ih hrest
          obtain ⟨hname, htype⟩ := attributes_of_argument harg
          obtain ⟨hname', htype'⟩ := attributes_of_argument harg'
          rw [hname] at hname'
          rw [htype] at htype'
          exact ⟨.cons ⟨Option.some.inj hname', Option.some.inj htype'⟩ has, hxs⟩
      | missing hlacks _ =>
          rw [hlacks.isComplete_eq] at hcomplete
          cases hcomplete
  | missing hlacks _ ih =>
      cases h' with
      | shown hcomplete _ _ =>
          rw [hlacks.isComplete_eq] at hcomplete
          cases hcomplete
      | missing hlacks' hrest =>
          obtain ⟨has, hxs⟩ := ih hrest
          obtain ⟨rfl, rfl⟩ := hlacks.unique hlacks'
          exact ⟨has, hxs ▸ rfl⟩

theorem Split.exists_argument {d : Definition} {i : Nat} {ps : List Element} {as : List Argument}
    {xs : List SkippedArgument} (h : Split d i ps as xs) :
    ∀ a ∈ as, ∃ p, d.argument p = .ok a := by
  induction h with
  | nil => exact nofun
  | @shown i p a ps as xs _ harg _ ih =>
      intro b hb
      rcases List.mem_cons.1 hb with rfl | hb
      · exact ⟨p, harg⟩
      · exact ih b hb
  | missing _ _ ih => exact ih

/-- Without the mark on the root an argument has no remarks. -/
theorem get_of_not_annotated {d : Definition} (hmark : d.isAnnotated = false) {p : Element}
    {a : Argument} (h : d.argument p = .ok a) (r : Remark) : a.get r = "" := by
  rw [argument_eq h, notedRemarks, hmark]
  cases r <;> rfl

theorem isPlain_render {d : Definition} (hmark : d.isAnnotated = false) (identifying : List String) :
    (d.render identifying).IsPlain := by
  intro row hrow r
  have hrows : (d.render identifying).rows.map (·.argument) = shown d.outcomes :=
    Row.map_argument_block identifying _
  obtain ⟨p, hp⟩ := d.split_outcomes.exists_argument row.argument
    (hrows ▸ List.mem_map_of_mem hrow)
  exact get_of_not_annotated hmark hp r

theorem argument_eq_of_mark {d d' : Definition} (hcore : d.core = d'.core)
    (hmark : d.isAnnotated = d'.isAnnotated) : d.argument = d'.argument := by
  funext p
  rw [argument, argument, remarks?, remarks?, hcore, hmark]

theorem outcome_eq_of_mark {d d' : Definition} (hcore : d.core = d'.core)
    (hmark : d.isAnnotated = d'.isAnnotated) : d.outcome = d'.outcome := by
  funext i p
  rw [outcome, outcome, argument_eq_of_mark hcore hmark]

theorem isAnnotated_iff {d : Definition} :
    d.isAnnotated = true ↔ d.root.declaredNamespace? d.annotationPrefix ≠ none :=
  Option.isSome_iff_ne_none

theorem isAnnotated_eq_false_iff {d : Definition} :
    d.isAnnotated = false ↔ d.root.declaredNamespace? d.annotationPrefix = none := by
  rw [← Bool.not_eq_true, isAnnotated_iff, not_not]

end Definition

/-- Under two annotation prefixes a body fails alike, or it has the same rows but for the remarks and
lacks the same arguments. There are no remarks under a prefix that the root does not declare, and the
same ones under all that it declares. -/
theorem renderBody_of_prefixes (body : String) (identifying : List String) (core p q : String) :
    (∃ fault, renderBody body identifying ⟨core, p⟩ = .error fault ∧
      renderBody body identifying ⟨core, q⟩ = .error fault) ∨
    ∃ root r r', Markup.parse body = .ok root ∧
      renderBody body identifying ⟨core, p⟩ = .ok r ∧
      renderBody body identifying ⟨core, q⟩ = .ok r' ∧
      r.skipped = r'.skipped ∧ List.Forall₂ Row.SameButRemarks r.rows r'.rows ∧
      (root.declaredNamespace? p = none → r.IsPlain) ∧
      (root.declaredNamespace? q = none → r'.IsPlain) ∧
      (root.declaredNamespace? p ≠ none → root.declaredNamespace? q ≠ none → r.rows = r'.rows) := by
  rw [renderBody_eq, renderBody_eq]
  cases parse body with
  | error fault => exact .inl ⟨fault, rfl, rfl⟩
  | ok root =>
      let d : Definition := ⟨root, core, p⟩
      let d' : Definition := ⟨root, core, q⟩
      obtain ⟨hshown, hskipped⟩ := d.split_outcomes.agree d'.split_outcomes
      refine .inr ⟨root, d.render identifying, d'.render identifying, rfl, rfl, rfl, hskipped,
        Row.sameButRemarks_block identifying hshown, fun hp => ?_, fun hq => ?_, fun hp hq => ?_⟩
      · exact Definition.isPlain_render (Definition.isAnnotated_eq_false_iff.2 hp) identifying
      · exact Definition.isPlain_render (Definition.isAnnotated_eq_false_iff.2 hq) identifying
      · have hmark : d.isAnnotated = d'.isAnnotated :=
          (Definition.isAnnotated_iff.2 hp).trans (Definition.isAnnotated_iff.2 hq).symm
        have houtcomes : d.outcomes = d'.outcomes :=
          congrArg d.argumentProperties.mapIdx (Definition.outcome_eq_of_mark rfl hmark)
        rw [Definition.render, Definition.render, houtcomes]

/-! ## Other names for the same namespaces -/

/-- An attribute whose prefix is forgotten, but not that it has one. -/
def Markup.Attribute.resolved (a : Attribute) : Attribute :=
  { a with pre := a.pre.map fun _ => "" }

namespace Markup.Element

mutual

/-- An element as its names resolve: no attribute that declares a namespace, and no attribute's
prefix. -/
def resolved : Element → Element
  | ⟨uri, name, attributes, children⟩ =>
    ⟨uri, name, (attributes.filter (!·.isDeclaration)).map Attribute.resolved, resolvedAll children⟩

/-- Some elements as their names resolve. -/
def resolvedAll : List Element → List Element
  | [] => []
  | e :: es => resolved e :: resolvedAll es

end

theorem resolvedAll_eq (es : List Element) : resolvedAll es = es.map resolved := by
  induction es with
  | nil => rfl
  | cons e es ih => rw [resolvedAll, ih, List.map_cons]

@[simp] theorem uri_resolved (e : Element) : e.resolved.uri = e.uri := by
  cases e
  rw [resolved]

@[simp] theorem name_resolved (e : Element) : e.resolved.name = e.name := by
  cases e
  rw [resolved]

theorem attributes_resolved (e : Element) :
    e.resolved.attributes = (e.attributes.filter (!·.isDeclaration)).map Attribute.resolved := by
  cases e
  rw [resolved]

theorem children_resolved (e : Element) : e.resolved.children = e.children.map resolved := by
  cases e
  rw [resolved, resolvedAll_eq]

@[simp] theorem isNamed_resolved (e : Element) (uri name : String) :
    e.resolved.isNamed uri name = e.isNamed uri name := by
  rw [isNamed, isNamed, uri_resolved, name_resolved]

@[simp] theorem hasElements_resolved (e : Element) : e.resolved.hasElements = e.hasElements := by
  rw [hasElements, hasElements, children_resolved, List.isEmpty_map]

/-- Declarations are in the way of no search for something else. -/
theorem find?_filter_isDeclaration {f : Attribute → Bool} (as : List Attribute)
    (h : ∀ a, f a = true → a.isDeclaration = false) :
    (as.filter (!·.isDeclaration)).find? f = as.find? f := by
  rw [List.find?_filter]
  congr 1
  funext a
  cases hf : f a with
  | false => simp
  | true => simp [h a hf]

theorem attribute?_resolved (e : Element) {name : String} (hname : name ≠ "xmlns") :
    e.resolved.attribute? name = e.attribute? name := by
  let f (a : Attribute) : Bool := a.pre.isNone && a.name == name
  have hresolved : f ∘ Attribute.resolved = f := by
    funext a
    show (a.resolved.pre.isNone && a.name == name) = f a
    rw [Attribute.resolved, Option.isNone_map]
  have hplain : ∀ a, f a = true → a.isDeclaration = false := by
    intro a ha
    obtain ⟨hpre, ha⟩ : a.pre = none ∧ a.name = name := by simpa [f] using ha
    rw [Attribute.isDeclaration, hpre, ha]
    exact beq_false_of_ne hname
  rw [attribute?, attributes_resolved, List.find?_map, hresolved,
    find?_filter_isDeclaration _ hplain, Option.map_map]
  rfl

theorem isDeclaration_resolved {a : Attribute} (h : a.isDeclaration = false) :
    a.resolved.isDeclaration = false := by
  obtain ⟨pre, name, value⟩ := a
  cases pre with
  | none => exact h
  | some pre => rfl

theorem firstAttribute?_resolved (e : Element) :
    e.resolved.firstAttribute? = e.firstAttribute?.map Attribute.resolved := by
  rw [firstAttribute?, attributes_resolved, List.find?_map, List.find?_filter, firstAttribute?]
  congr 2
  funext a
  cases ha : a.isDeclaration with
  | false => simp [isDeclaration_resolved ha]
  | true => simp

theorem child?_resolved (e : Element) (uri name : String) :
    e.resolved.child? uri name = (e.child? uri name).map resolved := by
  rw [child?, child?, children_resolved, List.find?_map]
  congr 2
  funext c
  exact isNamed_resolved c uri name

theorem visit_map_resolved (es : List Element) :
    visit (es.map resolved) = (visit es).map resolved := by
  induction es using visit.induct with
  | case1 => rw [List.map_nil, visit, List.map_nil]
  | case2 e rest ih =>
      rw [List.map_cons, visit, visit, children_resolved, ← List.map_append, ih, List.map_cons]

theorem descendants_resolved (e : Element) :
    e.resolved.descendants = e.descendants.map resolved := by
  rw [descendants, children_resolved, visit_map_resolved, descendants]

end Markup.Element

namespace Definition

/-- A definition as the names in it resolve. -/
def resolved (d : Definition) : Definition :=
  { d with root := d.root.resolved }

theorem argumentProperties_resolved (d : Definition) :
    d.resolved.argumentProperties = d.argumentProperties.map Element.resolved := by
  rw [argumentProperties_eq, argumentProperties_eq, resolved, Element.descendants_resolved,
    List.filter_map]
  congr 2
  funext e
  simp

theorem said_resolved (e : Element) : said e.resolved = said e := by
  rw [said, said, Element.firstAttribute?_resolved, Option.map_map]
  rfl

theorem note_resolved (a : Argument) (e : Element) : note a e.resolved = note a e := by
  have hsaid := said_resolved e
  rw [said, said] at hsaid
  rw [note, note, Element.name_resolved, hsaid]

theorem remarks?_resolved (d : Definition) (p : Element) :
    d.remarks? p.resolved = (d.remarks? p).map (List.map Element.resolved) := by
  rw [remarks?, remarks?, Element.child?_resolved, Option.map_map, Option.map_map]
  congr 1
  funext g
  exact g.children_resolved

theorem foldl_remarks_resolved (d : Definition) (p : Element) (a : Argument) :
    ((d.remarks? p.resolved).getD []).foldl note a = ((d.remarks? p).getD []).foldl note a := by
  rw [remarks?_resolved]
  cases d.remarks? p with
  | none => rfl
  | some es =>
      have hnote : (fun b e => note b (Element.resolved e)) = note := by
        funext b e
        exact note_resolved b e
      show (es.map Element.resolved).foldl note a = es.foldl note a
      rw [List.foldl_map, hnote]

theorem requiredAttribute_resolved (p : Element) {name : String} (hname : name ≠ "xmlns") :
    requiredAttribute p.resolved name = requiredAttribute p name := by
  rw [requiredAttribute, p.attribute?_resolved hname]
  rfl

theorem argument_resolved (d : Definition) (p : Element) : d.argument p.resolved = d.argument p := by
  simp only [argument, requiredAttribute_resolved p (by decide : "Name" ≠ "xmlns"),
    requiredAttribute_resolved p (by decide : "Type" ≠ "xmlns"), foldl_remarks_resolved]

theorem outcome_resolved (d : Definition) (i : Nat) (p : Element) :
    d.outcome i p.resolved = d.outcome i p := by
  rw [outcome, outcome, argument_resolved, Element.attribute?_resolved p (by decide)]

theorem outcomes_eq (d : Definition) :
    d.outcomes = d.resolved.argumentProperties.mapIdx d.outcome := by
  -- Only the properties are those of the resolved root; the mark on it is gone, so what comes of them
  -- is still asked of the definition as it is written.
  rw [argumentProperties_resolved, outcomes]
  refine List.ext_getElem? fun i => ?_
  rw [List.getElem?_mapIdx, List.getElem?_mapIdx, List.getElem?_map, Option.map_map]
  congr 1
  funext p
  exact (d.outcome_resolved i p).symm

/-- Nothing that a definition contributes depends on how its names are written, but for the mark on
the root. -/
theorem outcomes_congr {d d' : Definition} (hresolved : d.resolved = d'.resolved)
    (hmark : d.isAnnotated = d'.isAnnotated) : d.outcomes = d'.outcomes := by
  have hcore : d.core = d'.core := by
    show d.resolved.core = d'.resolved.core
    rw [hresolved]
  rw [outcomes_eq, hresolved, outcome_eq_of_mark hcore hmark, ← outcomes_eq]

end Definition

/-- Two bodies that resolve to the same elements are rendered alike, if the root of both declares the
annotation prefix or the root of neither does. How many declarations they have, where these stand and
what prefixes they introduce is left open. -/
theorem renderBody_of_resolved (names : Namespaces) {body body' : String} {root root' : Element}
    (hbody : Markup.parse body = .ok root) (hbody' : Markup.parse body' = .ok root')
    (hresolved : root.resolved = root'.resolved)
    (hmark : root.declaredNamespace? names.annotationPrefix = none ↔
      root'.declaredNamespace? names.annotationPrefix = none) (identifying : List String) :
    ∃ rendering, renderBody body identifying names = .ok rendering ∧
      renderBody body' identifying names = .ok rendering := by
  let d : Definition := ⟨root, names.core, names.annotationPrefix⟩
  let d' : Definition := ⟨root', names.core, names.annotationPrefix⟩
  have hresolved' : d.resolved = d'.resolved := by
    rw [Definition.resolved, Definition.resolved, hresolved]
  have hmark' : d.isAnnotated = d'.isAnnotated := by
    rw [Bool.eq_iff_iff, Definition.isAnnotated_iff, Definition.isAnnotated_iff]
    exact not_congr hmark
  refine ⟨d.render identifying, ?_, ?_⟩
  · rw [renderBody_eq, hbody]
    rfl
  · rw [renderBody_eq, hbody', Definition.render, Definition.outcomes_congr hresolved' hmark']
    rfl

/-- A body that declares its namespaces on the root, and one that declares them where it needs them,
with other prefixes and with a declaration before the value of a remark. -/
def outerBody : String :=
  "<r xmlns:x='u' xmlns:m='v'><x:Property Name='n' Type='t'><x:Property.Attributes>" ++
    "<m:ArgumentTargetAttribute m:Value='True'/></x:Property.Attributes></x:Property></r>"

def innerBody : String :=
  "<r xmlns:m='w'><Property xmlns='u' Name='n' xmlns:b='v' Type='t'><Property.Attributes>" ++
    "<b:ArgumentTargetAttribute xmlns:c='w' c:Value='True'/></Property.Attributes></Property></r>"

def outerRoot : Element :=
  ⟨none, "r", [⟨some "xmlns", "x", "u"⟩, ⟨some "xmlns", "m", "v"⟩],
    [⟨some "u", "Property", [⟨none, "Name", "n"⟩, ⟨none, "Type", "t"⟩],
      [⟨some "u", "Property.Attributes", [],
        [⟨some "v", "ArgumentTargetAttribute", [⟨some "m", "Value", "True"⟩], []⟩]⟩]⟩]⟩

def innerRoot : Element :=
  ⟨none, "r", [⟨some "xmlns", "m", "w"⟩],
    [⟨some "u", "Property",
      [⟨none, "xmlns", "u"⟩, ⟨none, "Name", "n"⟩, ⟨some "xmlns", "b", "v"⟩, ⟨none, "Type", "t"⟩],
      [⟨some "u", "Property.Attributes", [],
        [⟨some "v", "ArgumentTargetAttribute",
          [⟨some "xmlns", "c", "w"⟩, ⟨some "c", "Value", "True"⟩], []⟩]⟩]⟩]⟩

theorem parse_outerBody : Markup.parse outerBody = .ok outerRoot := by
  decide +kernel

theorem parse_innerBody : Markup.parse innerBody = .ok innerRoot := by
  decide +kernel

theorem renderBody_of_resolved_inner :
    Markup.parse outerBody = .ok outerRoot ∧ Markup.parse innerBody = .ok innerRoot ∧
    outerRoot.resolved = innerRoot.resolved ∧
    (outerRoot.declaredNamespace? "m" = none ↔ innerRoot.declaredNamespace? "m" = none) ∧
    ∃ rendering, renderBody outerBody ["a"] ⟨"u", "m"⟩ = .ok rendering ∧
      renderBody innerBody ["a"] ⟨"u", "m"⟩ = .ok rendering ∧
      rendering.rows.map (·.argument) = [{ name := "n", type := "t", target := "True" }] := by
  have hresolved : outerRoot.resolved = innerRoot.resolved := by decide
  have hmark : outerRoot.declaredNamespace? "m" = none ↔ innerRoot.declaredNamespace? "m" = none := by
    decide
  obtain ⟨rendering, houter, hinner⟩ :=
    renderBody_of_resolved ⟨"u", "m"⟩ parse_outerBody parse_innerBody hresolved hmark ["a"]
  refine ⟨parse_outerBody, parse_innerBody, hresolved, hmark, rendering, houter, hinner, ?_⟩
  rw [renderBody_eq, parse_outerBody] at houter
  cases houter
  decide +kernel

end ActionSheet
