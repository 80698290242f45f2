import ActionSheet.Proofs.Markup.Outline
import ActionSheet.Proofs.Markup.Tag
import Mathlib.Data.String.Basic

/-!
# How far a declaration of the root is heard

The value of a declaration is read twice. To the reader it is what a prefix stands for, and it is
taken as it is written; to the root it is the value of an attribute, and references in it are
expanded. This file follows one declaration down both ways.

The two ways agree about which declaration it is. The reader takes the last one of a tag and allows
a key to come back, and the root takes the first one and does not, but a document is only accepted
where no key comes back. They do not agree about what it says: what the elements inside have for a
namespace is the written value, and what the root reports is that value expanded, so the two are
equal exactly if the value is written without a reference. Expanding a reference always makes a
value shorter, which is why none of them goes unnoticed.
-/

namespace ActionSheet.Markup

open Text

/-! ## Values -/

/-- Expansion leaves a value alone if no reference begins in it, and otherwise shortens it. -/
theorem expandFrom_eq_ok {size offset : Nat} {s value : List Char}
    (h : expandFrom size offset s = .ok value) :
    (value = s ∧ '&' ∉ s) ∨ ('&' ∈ s ∧ value.length < s.length) := by
  fun_induction expandFrom size offset s generalizing value with
  | case1 offset =>
      cases h
      exact .inl ⟨rfl, List.not_mem_nil⟩
  | case2 offset r rest hrest ih =>
      -- Between the `&` and what is expanded next, at least the semicolon goes.
      obtain ⟨c, -, h⟩ := bind_eq_ok.1 h
      obtain ⟨more, hmore, h⟩ := bind_eq_ok.1 h
      cases h
      have hlong : rest.length + 1 ≤ r.length := by
        rw [← List.length_cons, ← hrest]
        exact length_referenceTail_le r
      have hshort : more.length ≤ rest.length := by
        rcases ih hmore with ⟨rfl, -⟩ | ⟨-, hlt⟩
        · exact Nat.le_refl _
        · exact Nat.le_of_lt hlt
      refine .inr ⟨List.mem_cons_self, ?_⟩
      rw [List.length_cons, List.length_cons]
      omega
  | case3 offset r hno => cases h
  | case4 offset c r hc ih =>
      obtain ⟨more, hmore, h⟩ := bind_eq_ok.1 h
      cases h
      rcases ih hmore with ⟨rfl, hnone⟩ | ⟨hmem, hlt⟩
      · exact .inl ⟨rfl, List.not_mem_cons_of_ne_of_not_mem (Ne.symm hc) hnone⟩
      · exact .inr ⟨List.mem_cons_of_mem c hmem, Nat.succ_lt_succ hlt⟩

theorem expand_eq_self_iff {raw value : List Char} (h : expand raw = .ok value) :
    raw = value ↔ '&' ∉ raw := by
  rcases expandFrom_eq_ok h with ⟨rfl, hnone⟩ | ⟨hmem, hlt⟩
  · exact iff_of_true rfl hnone
  · refine iff_of_false (fun he => ?_) (not_not_intro hmem)
    rw [he] at hlt
    exact Nat.lt_irrefl _ hlt

/-! ## Tags in which no key comes back -/

theorem key_of_scanValue {key s rest : List Char} {start position p : Nat} {a : WrittenAttribute}
    (h : scanValue key start position s = .attribute a p rest) : a.key = key := by
  unfold scanValue at h
  dsimp only at h
  split at h
  · cases h
  · split at h
    · split at h
      · cases h
      · cases h
        rfl
    · cases h

/-- The keys that may not come again make a fault or make no difference. -/
theorem scanAttribute_of_seen (seen : List (List Char × Nat)) (position : Nat) (s : List Char) :
    (∃ f, scanAttribute seen position s = .fault f) ∨
      (scanAttribute [] position s = scanAttribute seen position s ∧
        ∀ a p rest, scanAttribute seen position s = .attribute a p rest →
          seen.lookup a.key = none) := by
  unfold scanAttribute
  dsimp only
  split
  · refine .inr ⟨rfl, fun a p rest h => ?_⟩
    cases h
  · split
    · split
      · exact .inl ⟨_, rfl⟩
      · next hnew =>
          refine .inr ⟨rfl, fun a p rest h => ?_⟩
          rw [key_of_scanValue h]
          exact hnew
    · exact .inl ⟨_, rfl⟩

/-- Where the walk goes on, the keys that may not come again have made no difference. -/
theorem scanAttribute_of_ok {seen : List (List Char × Nat)} {position : Nat} {s : List Char}
    (h : ∀ f, scanAttribute seen position s ≠ .fault f) :
    scanAttribute [] position s = scanAttribute seen position s ∧
      ∀ a p rest, scanAttribute seen position s = .attribute a p rest →
        seen.lookup a.key = none :=
  (scanAttribute_of_seen seen position s).resolve_left fun ⟨f, hf⟩ => h f hf

/-- A walk that allows no key to come back and ends without a fault has found what the other walk
finds, and under keys of which no two are equal. -/
theorem walkAttributes_of_unique {seen : List (List Char × Nat)} {position : Nat} {s : List Char}
    {ws : List WrittenAttribute} (h : walkAttributes true seen position s = (ws, none)) :
    walkAttributes false [] position s = (ws, none) ∧ (ws.map (·.key)).Nodup ∧
      ∀ w ∈ ws, seen.lookup w.key = none := by
  fun_induction walkAttributes true seen position s generalizing ws with
  | case1 seen position s hscan =>
      cases h
      rw [walkAttributes_eq, (scanAttribute_of_ok (by rw [hscan]; exact nofun)).1, hscan]
      exact ⟨rfl, List.nodup_nil, nofun⟩
  | case2 seen position s f hscan => cases h
  | case3 seen position s a p rest hscan seen' more fault hmore =>
      rename_i ih
      cases h
      obtain ⟨hwalk, hnodup, hnew⟩ := ih hmore
      obtain ⟨hscan', hfirst⟩ := scanAttribute_of_ok (by rw [hscan]; exact nofun)
      -- The walk goes on with this key among those that it refuses.
      have hothers : ∀ w ∈ more, w.key ≠ a.key ∧ seen.lookup w.key = none := by
        intro w hw
        have hnone := List.lookup_eq_none_iff.1 (hnew w hw)
        refine ⟨?_, List.lookup_eq_none_iff.2 fun x hx => hnone x (List.mem_cons_of_mem _ hx)⟩
        exact bne_iff_ne.1 (hnone (a.key, a.position) List.mem_cons_self)
      refine ⟨?_, ?_, ?_⟩
      · rw [walkAttributes_eq, hscan', hscan]
        simp only [Bool.false_eq_true, if_false, hwalk]
      · rw [List.map_cons, List.nodup_cons]
        refine ⟨fun hmem => ?_, hnodup⟩
        obtain ⟨w, hw, hkey⟩ := List.mem_map.1 hmem
        exact (hothers w hw).1 hkey
      · intro w hw
        rcases List.mem_cons.1 hw with rfl | hw
        · exact hfirst _ _ _ hscan
        · exact (hothers w hw).2

/-! ## The attributes of an element -/

theorem forall₂_of_mapM_read {ws : List WrittenAttribute} : ∀ {as : List Attribute},
    ws.mapM WrittenAttribute.read = .ok as → List.Forall₂ (fun w a => w.read = .ok a) ws as := by
  induction ws with
  | nil =>
      intro as h
      cases h
      exact .nil
  | cons w ws ih =>
      intro as h
      rw [List.mapM_cons, bind_eq_ok] at h
      obtain ⟨a, ha, h⟩ := h
      obtain ⟨more, hmore, h⟩ := bind_eq_ok.1 h
      cases h
      exact .cons ha (ih hmore)

/-- The attributes of an element are those that its tag is searched for declarations, one by one
and each under a key of its own. -/
theorem readAttributes_eq_ok {tag : Tag} {as : List Attribute} (h : readAttributes tag = .ok as) :
    ((writtenAttributes false tag).1.map (·.key)).Nodup ∧
      List.Forall₂ (fun w a => w.read = .ok a) (writtenAttributes false tag).1 as := by
  obtain ⟨read, hread, h⟩ := bind_eq_ok.1 h
  cases hwalk : walkAttributes true [] (byteLength (tagName tag)) (tagRest tag) with
  | mk ws fault =>
      rw [hwalk] at hread h
      cases fault with
      | some f => cases h
      | none =>
          cases h
          obtain ⟨hsame, hnodup, -⟩ := walkAttributes_of_unique hwalk
          rw [writtenAttributes, hsame]
          exact ⟨hnodup, forall₂_of_mapM_read hread⟩

/-- The key of a declaration is a name with the prefix `xmlns`, split at its first colon. -/
theorem ofChars_eq_iff {key p : List Char} :
    Name.ofChars key = ⟨some "xmlns".toList, p⟩ ↔ key = "xmlns:".toList ++ p := by
  constructor
  · intro h
    have hkey := List.takeWhile_append_dropWhile (p := fun c => decide (c ≠ ':')) (l := key)
    unfold Name.ofChars at h
    split at h
    · cases h
    · next c r hdrop =>
        have hcolon := List.head?_dropWhile_not (fun c => decide (c ≠ ':')) key
        rw [hdrop, List.head?_cons] at hcolon
        obtain ⟨hpre, rfl⟩ := Name.mk.inj h
        rw [hdrop, Option.some.inj hpre, not_not.1 (of_decide_eq_false hcolon)] at hkey
        exact hkey.symm
  · rintro rfl
    rfl

/-- An attribute as it is read is looked up under a prefix exactly if, as it is written, it declares
the prefix. -/
theorem read_eq_ok {w : WrittenAttribute} {a : Attribute} (h : w.read = .ok a) (p : String) :
    (a.pre == some "xmlns" && a.name == p) = w.declares (some p.toList) ∧
      expand w.value = .ok a.value.toList := by
  unfold WrittenAttribute.read at h
  split at h
  · cases h
  · next value hvalue =>
      cases h
      refine ⟨?_, by rw [String.toList_ofList]; exact hvalue⟩
      rw [Bool.eq_iff_iff, Bool.and_eq_true, beq_iff_eq, beq_iff_eq, WrittenAttribute.declares,
        decide_eq_true_eq, ← ofChars_eq_iff, Option.map_eq_some_iff]
      cases Name.ofChars w.key with
      | mk pre part =>
          simp only [String.ofList_eq, Name.mk.injEq, exists_eq_right]

/-- Under one prefix, a tag declares what its element reports, but for references. -/
theorem rel_declared {ws : List WrittenAttribute} {as : List Attribute}
    (h : List.Forall₂ (fun w a => w.read = .ok a) ws as) (p : String) :
    (ws.map (·.key)).Nodup →
    Option.Rel (fun raw value => expand raw = .ok value.toList) (lastDeclared? (some p.toList) ws)
      ((as.find? fun a => a.pre == some "xmlns" && a.name == p).map (·.value)) := by
  induction h with
  | nil => exact fun _ => .none
  | @cons w a ws as hw _ ih =>
      intro hnodup
      rw [List.map_cons, List.nodup_cons] at hnodup
      obtain ⟨hnew, hnodup⟩ := hnodup
      obtain ⟨hsame, hvalue⟩ := read_eq_ok hw p
      rw [lastDeclared?, List.filter_cons, List.find?_cons, hsame]
      cases hd : w.declares (some p.toList) with
      | false => exact ih hnodup
      | true =>
          have hlast : ws.filter (·.declares (some p.toList)) = [] := by
            refine List.filter_eq_nil_iff.2 fun w' hw' hd' => hnew ?_
            have hkey := (of_decide_eq_true hd).trans (of_decide_eq_true hd').symm
            exact List.mem_map.2 ⟨w', hw', hkey.symm⟩
          rw [if_pos rfl, hlast]
          exact .some hvalue

theorem exists_declared {tag : Tag} {e : Element} (h : readAttributes tag = .ok e.attributes)
    {p value : String} (hvalue : e.declaredNamespace? p = some value) :
    ∃ raw, declared? (some p.toList) tag = some raw ∧ expand raw = .ok value.toList := by
  obtain ⟨hnodup, hall⟩ := readAttributes_eq_ok h
  have hrel : Option.Rel (fun raw value => expand raw = .ok value.toList)
      (declared? (some p.toList) tag) (e.declaredNamespace? p) := rel_declared hall p hnodup
  rw [hvalue] at hrel
  cases hd : declared? (some p.toList) tag with
  | none =>
      rw [hd] at hrel
      cases hrel
  | some raw =>
      rw [hd] at hrel
      cases hrel with
      | some hexpand => exact ⟨raw, rfl, hexpand⟩

/-! ## The way down -/

/-- The element at an address stands below the root, its name has a prefix, and neither its own tag
nor one between it and the root declares the prefix. -/
def Outline.Inherits (o : Outline) (p : String) (address : List Nat) : Prop :=
  address ≠ [] ∧ ∃ around tag, o.place? [] address = some (around, tag) ∧
    (Name.ofChars (tagName tag)).pre = some p.toList ∧
    ∀ t ∈ tag :: around.dropLast, declared? (some p.toList) t = none

/-- Below an element, the tags around it follow that of the element. -/
theorem Outline.exists_between {address : List Nat} : ∀ {i : Nat} {o : Outline}
    {around inner : List Tag} {tag : Tag}, o.place? around (i :: address) = some (inner, tag) →
    ∃ between, inner = between ++ o.tag :: around := by
  induction address with
  | nil =>
      intro i o around inner tag h
      obtain ⟨c, -, h⟩ := Option.bind_eq_some_iff.1 h
      cases h
      exact ⟨[], rfl⟩
  | cons j address ih =>
      intro i o around inner tag h
      obtain ⟨c, -, h⟩ := Option.bind_eq_some_iff.1 h
      obtain ⟨between, rfl⟩ := ih h
      exact ⟨between ++ [c.tag], (List.append_assoc between [c.tag] _).symm⟩

/-- Where no tag declares a prefix but the outermost, what that one declares is what the prefix
stands for. -/
theorem lexicalNamespace_of_last {around : List Tag} {tag root : Tag} {p raw : List Char}
    (hpre : (Name.ofChars (tagName tag)).pre = some p) (hp : p ≠ []) (hraw : raw ≠ [])
    (hroot : declared? (some p) root = some raw)
    (hnone : ∀ t ∈ tag :: around, declared? (some p) t = none) :
    lexicalNamespace (around ++ [root]) tag = some (String.ofList raw) := by
  have hfind : (tag :: (around ++ [root])).findSome? (declared? (some p)) = some raw := by
    rw [← List.cons_append, List.findSome?_append, List.findSome?_eq_none_iff.2 hnone,
      Option.none_or, List.findSome?_cons, hroot]
  rw [lexicalNamespace, hpre, if_neg (fun he => hp (Option.some.inj he)), hfind, Option.some_or,
    Option.filter_some, if_pos]
  · rfl
  · cases raw with
    | nil => exact absurd rfl hraw
    | cons c raw => rfl

/-- What becomes of a declaration of the root. The root reports the declared value with its
references expanded; every element that inherits the prefix has the value as it is written for its
namespace. The two are equal exactly if the value is written without a reference. -/
theorem uri_of_root_declaration {s : String} {e : Element} (h : parse s = .ok e) :
    ∃ tokens o, (Token.trail 0 (withoutMark s.toList)).items? = some tokens ∧
      Outline.walk o = tagMarks tokens ∧
      ∀ p value : String, p ≠ "" → value ≠ "" → e.declaredNamespace? p = some value →
        ∃ raw, declared? (some p.toList) o.tag = some raw ∧ expand raw = .ok value.toList ∧
          ∀ address, o.Inherits p address →
            ∃ element, e.at? address = some element ∧ element.uri = some (String.ofList raw) ∧
              (element.uri = e.declaredNamespace? p ↔ '&' ∉ raw) := by
  obtain ⟨tokens, o, htokens, hwalk, ho⟩ := exists_outline_of_parse h
  refine ⟨tokens, o, htokens, hwalk, fun p value hp hvalue hdeclared => ?_⟩
  have hread : readAttributes o.tag = .ok e.attributes :=
    (congrArg Label.attributes (Option.some.inj (ho []))).symm
  obtain ⟨raw, hroot, hexpand⟩ := exists_declared hread hdeclared
  have hraw : raw ≠ [] := by
    rintro rfl
    rw [expand, expandFrom] at hexpand
    exact hvalue (String.toList_eq_nil_iff.1 (Except.ok.inj hexpand).symm)
  refine ⟨raw, hroot, hexpand, fun address hinherits => ?_⟩
  obtain ⟨hbelow, around, tag, hplace, hpre, hnone⟩ := hinherits
  obtain ⟨i, address, rfl⟩ := List.exists_cons_of_ne_nil hbelow
  obtain ⟨between, rfl⟩ := Outline.exists_between hplace
  rw [List.dropLast_concat] at hnone
  have hlabel := ho (i :: address)
  rw [hplace] at hlabel
  obtain ⟨element, hat, hlabel⟩ := Option.map_eq_some_iff.1 hlabel
  have huri : element.uri = some (String.ofList raw) :=
    (congrArg Label.uri hlabel).trans <| lexicalNamespace_of_last hpre
      (fun hnil => hp (String.toList_eq_nil_iff.1 hnil)) hraw hroot hnone
  refine ⟨element, hat, huri, ?_⟩
  rw [huri, hdeclared, Option.some.injEq, String.ofList_eq]
  exact expand_eq_self_iff hexpand

/-! ## A declaration with a reference -/

/-- A text whose root declares a prefix by a value with a reference in it. -/
def referringText : String :=
  "<r xmlns:p='a&amp;b'><p:c/></r>"

theorem exists_element_referring : ∃ e element, parse referringText = .ok e ∧
    e.at? [0] = some element ∧ element.uri = some "a&amp;b" ∧
    e.declaredNamespace? "p" = some "a&b" := by
  have hread : (parse referringText).toOption.map
      (fun e => ((e.at? [0]).map (·.uri), e.declaredNamespace? "p")) =
        some (some (some "a&amp;b"), some "a&b") := by
    decide +kernel
  cases he : parse referringText with
  | error fault =>
      rw [he] at hread
      cases hread
  | ok e =>
      rw [he] at hread
      obtain ⟨hat, hdeclared⟩ := Prod.mk.inj (Option.some.inj hread)
      obtain ⟨element, hat, huri⟩ := Option.map_eq_some_iff.1 hat
      exact ⟨e, element, rfl, hat, huri, hdeclared⟩

theorem inherits_referring {tokens : List Token} {o : Outline}
    (htokens : (Token.trail 0 (withoutMark referringText.toList)).items? = some tokens)
    (hwalk : o.walk = tagMarks tokens) : o.Inherits "p" [0] := by
  have hpieces : (Token.trail 0 (withoutMark referringText.toList)).items? =
      some [.opening "r xmlns:p='a&amp;b'".toList, .empty "p:c".toList, .closing "r".toList] := by
    decide +kernel
  rw [hpieces] at htokens
  cases htokens
  have ho : o = .node "r xmlns:p='a&amp;b'".toList [.node "p:c".toList []] :=
    Outline.walk_injective hwalk
  rw [ho]
  exact ⟨List.cons_ne_nil _ _, _, _, rfl, rfl, by decide +kernel⟩

theorem uri_of_root_declaration_referring :
    ∃ e element raw, parse referringText = .ok e ∧ e.at? [0] = some element ∧
      expand raw = .ok "a&b".toList ∧ element.uri = some (String.ofList raw) ∧
      (element.uri = e.declaredNamespace? "p" ↔ '&' ∉ raw) := by
  obtain ⟨e, -, he, -, -, hdeclared⟩ := exists_element_referring
  obtain ⟨tokens, o, htokens, hwalk, hdown⟩ := uri_of_root_declaration he
  obtain ⟨raw, -, hexpand, hbelow⟩ := hdown "p" "a&b" (by decide) (by decide) hdeclared
  obtain ⟨element, hat, huri, hiff⟩ := hbelow [0] (inherits_referring htokens hwalk)
  exact ⟨e, element, raw, he, hat, hexpand, huri, hiff⟩

/-- So it is not the case that every element that inherits a prefix has the namespace that the root
reports for it. -/
theorem uri_ne_declaredNamespace_referring :
    ¬∀ (s : String) (e : Element), parse s = .ok e →
      ∃ tokens o, (Token.trail 0 (withoutMark s.toList)).items? = some tokens ∧
        Outline.walk o = tagMarks tokens ∧
        ∀ p value : String, p ≠ "" → p ≠ "xml" → p ≠ "xmlns" → value ≠ "" →
          e.declaredNamespace? p = some value →
            ∀ address, o.Inherits p address →
              ∃ element, e.at? address = some element ∧
                element.uri = e.declaredNamespace? p := by
  intro hall
  obtain ⟨e, element, he, hat, huri, hdeclared⟩ := exists_element_referring
  obtain ⟨tokens, o, htokens, hwalk, hdown⟩ := hall referringText e he
  obtain ⟨element', hat', huri'⟩ := hdown "p" "a&b" (by decide) (by decide) (by decide) (by decide)
    hdeclared [0] (inherits_referring htokens hwalk)
  rw [hat] at hat'
  cases hat'
  rw [huri, hdeclared] at huri'
  exact absurd huri' (by decide)

end ActionSheet.Markup
