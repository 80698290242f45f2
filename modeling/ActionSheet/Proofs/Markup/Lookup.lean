import ActionSheet.Definition
import ActionSheet.Proofs.Markup.Declaration
import ActionSheet.Proofs.Markup.Preorder
import Mathlib.Data.List.Nodup

/-!
# Looking up attributes

A look-up among attributes takes the first that fits, so what it answers could depend on the order of
the attributes, and a second one that fits could be passed over. In a tree that was read neither can
happen. A tag allows no key to come back, and while an element keeps its keys split at the first colon
and forgets where that colon was, the split loses nothing: a key without a colon has no prefix, and
the prefix of any other ends where its first colon stood (`Name.ofChars_injective`). So names are as
distinct as keys, also those of `:a` and `a`, or of `a:b:c` and `a:b`.

`IsRegular` is what is true of every element of such a tree. The rest is said of elements that have
it, whatever they were read from. What a look-up finds in any element is said by `HasAttribute` and
`HasNoAttribute`, which speak of the attributes alone.
-/

namespace ActionSheet.Markup

/-! ## Keys and their parts -/

theorem Name.ofChars_cases (s : List Char) :
    (Name.ofChars s = ⟨none, s⟩ ∧ ':' ∉ s) ∨
      ∃ p r, Name.ofChars s = ⟨some p, r⟩ ∧ ':' ∉ p ∧ s = p ++ ':' :: r := by
  have hsplit := List.takeWhile_append_dropWhile (p := fun c => decide (c ≠ ':')) (l := s)
  have hfront : ':' ∉ s.takeWhile (· ≠ ':') := fun hmem =>
    absurd (List.all_eq_true.1 List.all_takeWhile _ hmem) (by decide)
  unfold Name.ofChars
  split
  · next hdrop =>
      rw [hdrop, List.append_nil] at hsplit
      exact .inl ⟨rfl, hsplit ▸ hfront⟩
  · next c r hdrop =>
      have hcolon := List.head?_dropWhile_not (fun c => decide (c ≠ ':')) s
      rw [hdrop, List.head?_cons] at hcolon
      rw [hdrop, not_not.1 (of_decide_eq_false hcolon)] at hsplit
      exact .inr ⟨_, r, rfl, hfront, hsplit.symm⟩

theorem Name.ofChars_injective : Function.Injective Name.ofChars := by
  intro s t h
  rcases ofChars_cases s with ⟨hs, -⟩ | ⟨p, r, hs, -, rfl⟩
  · rcases ofChars_cases t with ⟨ht, -⟩ | ⟨p', r', ht, -, rfl⟩
    · rw [hs, ht] at h
      exact (Name.mk.inj h).2
    · rw [hs, ht] at h
      cases h
  · rcases ofChars_cases t with ⟨ht, -⟩ | ⟨p', r', ht, -, rfl⟩
    · rw [hs, ht] at h
      cases h
    · rw [hs, ht] at h
      cases h
      rfl

/-- The name of an attribute in its two parts. -/
def Attribute.fullName (a : Attribute) : Option String × String :=
  (a.pre, a.name)

/-- The name that an attribute has under a key. -/
def fullNameOf (key : List Char) : Option String × String :=
  ((Name.ofChars key).pre.map String.ofList, String.ofList (Name.ofChars key).part)

theorem fullNameOf_injective : Function.Injective fullNameOf := by
  intro s t h
  obtain ⟨hpre, hpart⟩ := Prod.mk.inj h
  refine Name.ofChars_injective ?_
  have hinj : Function.Injective String.ofList := fun _ _ => String.ofList_inj.1
  cases hs : Name.ofChars s with
  | mk pre part =>
      cases ht : Name.ofChars t with
      | mk pre' part' =>
          rw [hs, ht] at hpre hpart
          obtain rfl : pre = pre' := Option.map_injective hinj hpre
          obtain rfl : part = part' := hinj hpart
          rfl

theorem fullName_of_read {w : WrittenAttribute} {a : Attribute} (h : w.read = .ok a) :
    a.fullName = fullNameOf w.key := by
  unfold WrittenAttribute.read at h
  split at h
  · cases h
  · cases h
    rfl

theorem map_fullName_of_read {ws : List WrittenAttribute} {as : List Attribute}
    (h : List.Forall₂ (fun w a => w.read = .ok a) ws as) :
    as.map (·.fullName) = (ws.map (·.key)).map fullNameOf := by
  induction h with
  | nil => rfl
  | cons hw _ ih => rw [List.map_cons, List.map_cons, List.map_cons, fullName_of_read hw, ih]

/-! ## What every element of a document is like -/

namespace Element

/-- What look-ups rely on. No name comes back among the attributes; a colon stands in a name only
behind a prefix, and in no prefix; and a namespace is not empty. -/
structure IsRegular (e : Element) : Prop where
  nodup : (e.attributes.map (·.fullName)).Nodup
  name : ∀ a ∈ e.attributes, a.pre = none → ':' ∉ a.name.toList
  pre : ∀ a ∈ e.attributes, ∀ p, a.pre = some p → ':' ∉ p.toList
  uri : e.uri ≠ some ""

end Element

theorem fullNameOf_colons (key : List Char) :
    ((fullNameOf key).1 = none → ':' ∉ (fullNameOf key).2.toList) ∧
      ∀ p, (fullNameOf key).1 = some p → ':' ∉ p.toList := by
  rcases Name.ofChars_cases key with ⟨hkey, hnone⟩ | ⟨p, r, hkey, hnone, -⟩
  · rw [fullNameOf, hkey]
    refine ⟨fun _ => ?_, nofun⟩
    rw [String.toList_ofList]
    exact hnone
  · rw [fullNameOf, hkey]
    refine ⟨nofun, fun q hq => ?_⟩
    rw [← Option.some.inj hq, String.toList_ofList]
    exact hnone

theorem lexicalNamespace_ne_empty (around : List Tag) (tag : Tag) :
    lexicalNamespace around tag ≠ some "" := by
  intro h
  rw [lexicalNamespace] at h
  split at h
  · cases h
  · obtain ⟨uri, huri, hempty⟩ := Option.map_eq_some_iff.1 h
    have hne := (Option.filter_eq_some_iff.1 huri).2
    rw [String.ofList_eq_empty_iff.1 hempty] at hne
    cases hne

/-- Whatever a tag says of an element makes it regular. -/
theorem isRegular_of_label {e : Element} {around : List Tag} {tag : Tag}
    (h : e.label = .inScope around tag) : e.IsRegular := by
  obtain ⟨hnodup, hread⟩ := readAttributes_eq_ok (congrArg Label.attributes h).symm
  have hnames := map_fullName_of_read hread
  have hcolons : ∀ a ∈ e.attributes,
      (a.pre = none → ':' ∉ a.name.toList) ∧ ∀ p, a.pre = some p → ':' ∉ p.toList := by
    intro a ha
    have hmem : a.fullName ∈ e.attributes.map (·.fullName) := List.mem_map_of_mem ha
    rw [hnames] at hmem
    obtain ⟨key, -, hkey⟩ := List.mem_map.1 hmem
    have hsplit := fullNameOf_colons key
    rw [hkey] at hsplit
    exact hsplit
  refine ⟨?_, fun a ha => (hcolons a ha).1, fun a ha => (hcolons a ha).2, ?_⟩
  · rw [hnames]
    exact List.Nodup.map fullNameOf_injective hnodup
  · have huri : e.uri = lexicalNamespace around tag := congrArg Label.uri h
    rw [huri]
    exact lexicalNamespace_ne_empty around tag

theorem isRegular_at {s : String} {e x : Element} (h : parse s = .ok e) {address : List Nat}
    (hx : e.at? address = some x) : x.IsRegular := by
  obtain ⟨tokens, o, -, -, ho⟩ := exists_outline_of_parse h
  have hlabel := ho address
  rw [hx, Option.map_some] at hlabel
  obtain ⟨⟨around, tag⟩, -, hlabel⟩ := Option.map_eq_some_iff.1 hlabel.symm
  exact isRegular_of_label hlabel.symm

/-! ## What a look-up finds -/

namespace Element

/-- The attributes with a given name, of which a look-up takes the first. -/
def called (e : Element) (fullName : Option String × String) : List Attribute :=
  e.attributes.filter (·.fullName == fullName)

theorem attribute?_eq (e : Element) (name : String) :
    e.attribute? name = ((e.called (none, name)).head?).map (·.value) := by
  rw [attribute?, called, List.head?_filter]
  congr 2
  funext a
  cases a with
  | mk pre _ _ => cases pre <;> rfl

theorem declaredNamespace?_eq (e : Element) (pre : String) :
    e.declaredNamespace? pre = ((e.called (some "xmlns", pre)).head?).map (·.value) := by
  rw [declaredNamespace?, called, List.head?_filter]
  rfl

/-- An element has an attribute of a given name without prefix, and this is its value. If several are
so called, the first of them counts; no element of a document has more than one. -/
inductive HasAttribute (e : Element) (name : String) : String → Prop
  | first {before after : List Attribute} {value : String} :
      e.attributes = before ++ ⟨none, name, value⟩ :: after →
      (∀ a ∈ before, a.fullName ≠ (none, name)) → HasAttribute e name value

/-- An element has no attribute of a given name without prefix. -/
def HasNoAttribute (e : Element) (name : String) : Prop :=
  ∀ a ∈ e.attributes, a.fullName ≠ (none, name)

theorem attribute?_eq_some {e : Element} {name value : String} :
    e.attribute? name = some value ↔ e.HasAttribute name value := by
  rw [attribute?_eq, called, List.head?_filter, Option.map_eq_some_iff]
  constructor
  · rintro ⟨⟨pre, name', value'⟩, ha, rfl⟩
    obtain ⟨hname, before, after, heq, hbefore⟩ := List.find?_eq_some_iff_append.1 ha
    cases beq_iff_eq.1 hname
    exact .first heq (by simpa using hbefore)
  · rintro ⟨heq, hbefore⟩
    refine ⟨_, List.find?_eq_some_iff_append.2 ⟨?_, _, _, heq, ?_⟩, rfl⟩
    · exact beq_self_eq_true _
    · simpa using hbefore

theorem attribute?_eq_none {e : Element} {name : String} :
    e.attribute? name = none ↔ e.HasNoAttribute name := by
  rw [attribute?_eq, called, List.head?_filter, Option.map_eq_none_iff, List.find?_eq_none]
  exact forall₂_congr fun a _ => not_congr beq_iff_eq

theorem isSome_attribute? (e : Element) (name : String) :
    (e.attribute? name).isSome = e.attributes.any (·.fullName == (none, name)) := by
  rw [attribute?_eq, called, List.head?_filter, Option.isSome_map, List.isSome_find?]

theorem HasAttribute.unique {e : Element} {name value value' : String}
    (h : e.HasAttribute name value) (h' : e.HasAttribute name value') : value = value' :=
  Option.some.inj ((attribute?_eq_some.2 h).symm.trans (attribute?_eq_some.2 h'))

theorem HasAttribute.not_hasNoAttribute {e : Element} {name value : String}
    (h : e.HasAttribute name value) : ¬e.HasNoAttribute name := by
  intro hnone
  have hsome := attribute?_eq_some.2 h
  rw [attribute?_eq_none.2 hnone] at hsome
  cases hsome

/-- Of a regular element one attribute fits what is looked up, or none. -/
theorem IsRegular.called_cases {e : Element} (h : e.IsRegular)
    (fullName : Option String × String) :
    e.called fullName = [] ∨ ∃ a, e.called fullName = [a] := by
  have hnodup : ((e.called fullName).map (·.fullName)).Nodup :=
    h.nodup.sublist (List.filter_sublist.map _)
  have hall : ∀ a ∈ e.called fullName, a.fullName = fullName :=
    fun a ha => beq_iff_eq.1 (List.mem_filter.1 ha).2
  rw [List.map_congr_left hall, List.map_const', List.nodup_replicate] at hnodup
  match heq : e.called fullName with
  | [] => exact .inl rfl
  | [a] => exact .inr ⟨a, rfl⟩
  | _ :: _ :: _ =>
      rw [heq, List.length_cons, List.length_cons] at hnodup
      omega

theorem IsRegular.toList_head?_called {e : Element} (h : e.IsRegular)
    (fullName : Option String × String) :
    (e.called fullName).head?.toList = e.called fullName := by
  rcases h.called_cases fullName with heq | ⟨a, heq⟩
  · rw [heq]
    rfl
  · rw [heq]
    rfl

theorem IsRegular.called_of_perm {e : Element} (h : e.IsRegular) {as : List Attribute}
    (hperm : as.Perm e.attributes) (fullName : Option String × String) :
    called { e with attributes := as } fullName = e.called fullName := by
  have hcalled : (called { e with attributes := as } fullName).Perm (e.called fullName) :=
    hperm.filter _
  rcases h.called_cases fullName with heq | ⟨a, heq⟩
  · rw [heq] at hcalled ⊢
    exact List.perm_nil.1 hcalled
  · rw [heq] at hcalled ⊢
    exact List.perm_singleton.1 hcalled

theorem IsRegular.isNamed_empty {e : Element} (h : e.IsRegular) (name : String) :
    e.isNamed "" name = false := by
  rw [isNamed, Bool.and_eq_false_iff]
  exact .inr (beq_eq_false_iff_ne.2 h.uri)

/-- What no element of a tree is picked by picks nothing from it. -/
theorem filter_descendants_eq_nil {e : Element} {picks : Element → Bool}
    (h : ∀ address x, e.at? address = some x → picks x = false) :
    e.descendants.filter picks = [] := by
  obtain ⟨places, hplaces⟩ := e.exists_isSelection picks
  have hnone : places = [] := by
    refine List.eq_nil_iff_forall_not_mem.2 fun a ha => ?_
    obtain ⟨-, x, hx, hpicked⟩ := (hplaces.mem_iff a).1 ha
    rw [h a x hx] at hpicked
    cases hpicked
  have hat := hplaces.at_places
  rw [hnone, List.forall₂_nil_left_iff] at hat
  exact hat

end Element

/-- Every element of a document is regular. So the order of its attributes is nothing to a look-up;
the attributes that fit what is looked up are the one that is found, or none; and no element is in the
empty namespace, so a definition read with that for its core has no properties. -/
theorem regular_of_parse {s : String} {e : Element} (h : parse s = .ok e) :
    (∀ address x, e.at? address = some x →
      x.IsRegular ∧
      (∀ as : List Attribute, as.Perm x.attributes → ∀ name : String,
        Element.attribute? { x with attributes := as } name = x.attribute? name ∧
        Element.declaredNamespace? { x with attributes := as } name = x.declaredNamespace? name) ∧
      (∀ name : String,
        (x.called (none, name)).map (·.value) = (x.attribute? name).toList ∧
        (x.called (some "xmlns", name)).map (·.value) = (x.declaredNamespace? name).toList) ∧
      ∀ name : String, x.isNamed "" name = false) ∧
    ∀ annotationPrefix : String, ∃ d, Definition.parse s ⟨"", annotationPrefix⟩ = .ok d ∧
      d.root = e ∧ d.properties = [] := by
  refine ⟨fun address x hx => ?_, fun annotationPrefix => ?_⟩
  · have hregular := isRegular_at h hx
    refine ⟨hregular, fun as has name => ?_, fun name => ?_, hregular.isNamed_empty⟩
    · rw [Element.attribute?_eq, Element.declaredNamespace?_eq, hregular.called_of_perm has,
        hregular.called_of_perm has, ← Element.attribute?_eq, ← Element.declaredNamespace?_eq]
      exact ⟨rfl, rfl⟩
    · rw [Element.attribute?_eq, Element.declaredNamespace?_eq, Option.toList_map, Option.toList_map,
        hregular.toList_head?_called, hregular.toList_head?_called]
      exact ⟨rfl, rfl⟩
  · refine ⟨⟨e, "", annotationPrefix⟩, ?_, rfl, ?_⟩
    · rw [Definition.parse, h]
      rfl
    · exact Element.filter_descendants_eq_nil fun address x hx =>
        (isRegular_at h hx).isNamed_empty _

/-- A text with keys that differ in their colons alone. -/
def colonText : String :=
  "<p:r xmlns:p='u' a='1' :a='2' a:b:c='3' a:b='4'><x xmlns='' xmlns:='v' y:a='5'/></p:r>"

theorem regular_of_parse_colons :
    ∃ e, parse colonText = .ok e ∧ e.IsRegular ∧
      Element.attribute? { e with attributes := e.attributes.reverse } "a" = some "1" ∧
      Element.declaredNamespace? { e with attributes := e.attributes.reverse } "p" = some "u" ∧
      (e.called (none, "a")).map (·.value) = ["1"] ∧ e.isNamed "" "r" = false ∧
      ∃ d, Definition.parse colonText ⟨"", "m"⟩ = .ok d ∧ d.root = e ∧ d.properties = [] := by
  have hread : (parse colonText).toOption.map
      (fun e => (e.attribute? "a", e.declaredNamespace? "p")) = some (some "1", some "u") := by
    decide +kernel
  cases he : parse colonText with
  | error fault =>
      rw [he] at hread
      cases hread
  | ok e =>
      rw [he] at hread
      obtain ⟨ha, hp⟩ := Prod.mk.inj (Option.some.inj hread)
      obtain ⟨hall, hnone⟩ := regular_of_parse he
      obtain ⟨hregular, hperm, hfits, hnamed⟩ := hall [] e rfl
      have hreverse := hperm e.attributes.reverse (List.reverse_perm _)
      refine ⟨e, rfl, hregular, (hreverse "a").1.trans ha, (hreverse "p").2.trans hp, ?_,
        hnamed "r", hnone "m"⟩
      rw [(hfits "a").1, ha]
      rfl

end ActionSheet.Markup
