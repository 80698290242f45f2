import ActionSheet.Proofs.Markup.Outline
import ActionSheet.Proofs.Markup.Tag

/-!
# Every way of writing a draft is read

The reader and the builder go through a text that writes a draft and end with the element of that
draft, whatever stood between its children. The induction is over the derivation that the text
writes the draft, and its claim is about one element anywhere: from wherever reading stands, the
text of an element carries it to where the element is attached and everything else is as it was.

The depth of the stack is the only thing that an element needs from its surroundings, and the scope
the only thing that it takes from them. Where a draft has no prefix and declares nothing, it takes
nothing, and the element is the draft's to the letter.
-/

namespace ActionSheet.Markup

open Text Draft

namespace Draft

mutual

/-- A draft keeps clear of namespaces: no element has a prefix and no entry is a declaration. -/
def Undeclared : Draft → Prop
  | node name entries children =>
    name.pre = none ∧ (∀ a ∈ entries, ¬a.IsDeclaration) ∧ UndeclaredAll children

def UndeclaredAll : List Draft → Prop
  | [] => True
  | d :: ds => Undeclared d ∧ UndeclaredAll ds

end

end Draft

/-- The reader inside a tag that it has entered. -/
def Reader.inside (r : Reader) (scope : Scope) (name : List Char) : Reader :=
  ⟨scope, ⟨name, r.scope⟩ :: r.opened⟩

/-- A frame with more children. -/
def Frame.holding (f : Frame) (es : List Element) : Frame :=
  { f with children := es.reverse ++ f.children }

namespace Stand

/-! ## One piece -/

section Piece

variable {r : Reader} {g g' : Growth} {tag : Tag} {scope : Scope} {f : Frame}

theorem takes_opening (henter : r.scope.enter tag = .ok scope)
    (hf : Growth.openFrame (Reader.namespaceOf scope tag) tag = .ok f)
    (hd : g.stack.length < maxDepth) :
    Takes ⟨r, g⟩ (.opening tag)
      ⟨r.inside scope (tagName tag), ⟨f :: g.stack, g.root⟩⟩ := by
  refine ⟨.start (Reader.namespaceOf scope tag) tag, ?_, Growth.step_eq_ok.2 (.start hd hf)⟩
  show (r.scope.enter tag >>= fun scope => _) = _
  rw [henter]
  rfl

theorem takes_empty (henter : r.scope.enter tag = .ok scope)
    (hf : Growth.openFrame (Reader.namespaceOf scope tag) tag = .ok f)
    (ha : g.attach f.element = .ok g') : Takes ⟨r, g⟩ (.empty tag) ⟨r, g'⟩ := by
  refine ⟨.empty (Reader.namespaceOf scope tag) tag, ?_, Growth.step_eq_ok.2 (.empty hf ha)⟩
  show (r.scope.enter tag >>= fun scope => _) = _
  rw [henter]
  rfl

theorem takes_closing (ha : g.attach f.element = .ok g') (outer : Reader) (inner : Scope)
    (name : List Char) :
    Takes ⟨outer.inside inner name, ⟨f :: g.stack, g.root⟩⟩ (.closing name) ⟨outer, g'⟩ :=
  ⟨.finish, if_pos rfl, Growth.step_eq_ok.2 (.finish rfl ha)⟩

theorem takes_skipped {a : Stand} {t : Token} (h : a.reader.step t = .ok (.skipped, a.reader)) :
    a.Takes t a :=
  ⟨.skipped, h, rfl⟩

theorem takes_cdata {a : Stand} (ha : a.growth.stack ≠ []) : a.Takes .cdata a :=
  ⟨.cdata, rfl, Growth.step_eq_ok.2 (.ignored rfl fun hs => absurd hs ha)⟩

end Piece

/-! ## What is no element -/

theorem passes_aside (a : Stand) {s : List Char} (h : Aside s) : a.Passes s a := by
  cases h with
  | comment hc => exact passes_of_reads (Token.reads_comment hc) (takes_skipped rfl)
  | instruction hc hi => exact passes_of_reads (Token.reads_instruction hc hi) (takes_skipped rfl)

theorem passes_filler {a : Stand} (ha : a.growth.stack ≠ []) {s : List Char} (h : Filler s) :
    a.Passes s a := by
  cases h with
  | text hs => exact passes_text ha hs
  | cdata hs => exact passes_of_reads (Token.reads_cdata hs) (takes_cdata ha)
  | aside hs => exact passes_aside a hs

theorem passes_margin (a : Stand) {s : List Char} (h : Margin s) : a.Passes s a := by
  induction h with
  | nil => exact passes_nil a
  | blanks hb _ ih => exact (passes_blanks a hb).append ih
  | aside hx _ ih => exact (passes_aside a hx).append ih

end Stand

/-! ## Elements -/

/-- An element is what a draft becomes in a scope: the draft's own element, with namespaces. -/
structure Draft.Becomes (scope : Scope) (d : Draft) (e : Element) : Prop where
  bare : e.bare = d.element
  same : d.Undeclared → scope.resolve none = none → e = d.element

structure Draft.BecomeAll (scope : Scope) (ds : List Draft) (es : List Element) : Prop where
  bare : Element.bareAll es = elementAll ds
  same : UndeclaredAll ds → scope.resolve none = none → es = elementAll ds

theorem Draft.BecomeAll.cons {scope : Scope} {d : Draft} {ds : List Draft} {e : Element}
    {es : List Element} (h : d.Becomes scope e) (hs : BecomeAll scope ds es) :
    BecomeAll scope (d :: ds) (e :: es) := by
  refine ⟨?_, ?_⟩
  · rw [Element.bareAll, elementAll, h.bare, hs.bare]
  · intro hu hr
    rw [elementAll, h.same hu.1 hr, hs.same hu.2 hr]

theorem reads_closing_chars {n : Name} (hn : n.IsPlain) :
    Token.Reads ("</".toList ++ n.chars ++ ['>']) (.closing n.chars) := by
  refine Token.reads_closing (quoteThrough_chars hn) fun c hc => ?_
  exact isBlank_of_isKeyNameChar (hn.chars_spec.2 c (List.mem_of_getLast? hc))

/-- What a tag says in a scope of its own declarations. -/
def tagFrame (scope : Scope) (n : Name) (as : List Entry) (s : List Char) : Frame :=
  ⟨Reader.namespaceOf scope (n.chars ++ s), String.ofList n.part, as.map Entry.toAttribute, []⟩

theorem WritesTag.becomes_node {n : Name} {as : List Entry} {s : List Char} (h : WritesTag n as s)
    {outer scope : Scope} {ds : List Draft} {es : List Element}
    (hsame : (∀ a ∈ as, ¬a.IsDeclaration) → scope = outer) (hes : BecomeAll scope ds es) :
    Becomes outer (node n as ds) ((tagFrame scope n as s).holding es).element := by
  have helement : ((tagFrame scope n as s).holding es).element =
      ⟨Reader.namespaceOf scope (n.chars ++ s), String.ofList n.part, as.map Entry.toAttribute,
        es⟩ := by
    rw [Frame.element, Frame.holding, tagFrame, List.append_nil, List.reverse_reverse]
  rw [helement]
  refine ⟨?_, ?_⟩
  · rw [Element.bare, hes.bare]
    rfl
  · rintro ⟨hpre, hno, hu⟩ hr
    rw [← hsame hno] at hr
    have huri : Reader.namespaceOf scope (n.chars ++ s) = none := by
      rw [Reader.namespaceOf, h.ofChars_tagName, hpre, hr]
      rfl
    rw [element, ← hes.same hu hr]
    exact congrArg (Element.mk · _ _ es) huri

mutual

/-- From anywhere, the text of an element leads to where the element is attached. -/
theorem passes_written : ∀ {d : Draft} {s : List Char}, Written d s → d.WellFormed →
    ∀ r : Reader, ∃ e, d.Becomes r.scope e ∧
      ∀ g g' : Growth, g.stack.length + d.depth ≤ maxDepth → g.attach e = .ok g' →
        Stand.Passes ⟨r, g⟩ s ⟨r, g'⟩
  | _, _, @Written.empty n as s hs, hw, r => by
      obtain ⟨hn, hall, hnodup, -⟩ := hw
      have htag : WritesTag n as s := ⟨hn, hs, hall, hnodup⟩
      obtain ⟨scope, henter, hsame⟩ := htag.exists_enter r.scope
      have hf : Growth.openFrame _ _ = .ok (tagFrame scope n as s) := htag.openFrame_eq _
      refine ⟨_, htag.becomes_node hsame ⟨rfl, fun _ _ => rfl⟩, fun g g' _ ha => ?_⟩
      exact Stand.passes_of_reads (Token.reads_empty htag.tagText) (Stand.takes_empty henter hf ha)
  | _, _, @Written.element n as ds s body hs hbody, hw, r => by
      obtain ⟨hn, hall, hnodup, hds⟩ := hw
      have htag : WritesTag n as s := ⟨hn, hs, hall, hnodup⟩
      obtain ⟨scope, henter, hsame⟩ := htag.exists_enter r.scope
      have hf : Growth.openFrame _ _ = .ok (tagFrame scope n as s) := htag.openFrame_eq _
      obtain ⟨es, hes, hpass⟩ := passes_content hbody hds (r.inside scope n.chars)
      refine ⟨_, htag.becomes_node hsame hes, fun g g' hd ha => ?_⟩
      rw [depth] at hd
      have hopen := Stand.passes_of_reads (Token.reads_opening htag.tagText htag.getLast?_ne)
        (Stand.takes_opening henter hf (show g.stack.length < maxDepth by omega))
      rw [htag.tagName_eq] at hopen
      -- The end tag restores the scope outside, so the reader is the one from before the tag.
      have hclose := Stand.passes_of_reads (reads_closing_chars hn)
        (Stand.takes_closing ha r scope n.chars)
      exact (hopen.append (hpass _ g.stack g.root (by omega))).append hclose

/-- Inside an element, a text of some elements leads to where they are its latest children. -/
theorem passes_content : ∀ {ds : List Draft} {s : List Char}, Content ds s → WellFormedAll ds →
    ∀ r : Reader, ∃ es, BecomeAll r.scope ds es ∧
      ∀ (f : Frame) (rest : List Frame) (root : Option Element),
        rest.length + 1 + depthAll ds ≤ maxDepth →
        Stand.Passes ⟨r, ⟨f :: rest, root⟩⟩ s
          ⟨r, ⟨f.holding es :: rest, root⟩⟩
  | _, _, .nil, _, r => ⟨[], ⟨rfl, fun _ _ => rfl⟩, fun _ _ _ _ => Stand.passes_nil _⟩
  | _, _, .filler hx hs, hw, r => by
      obtain ⟨es, hes, hpass⟩ := passes_content hs hw r
      refine ⟨es, hes, fun f rest root hd => ?_⟩
      exact (Stand.passes_filler (List.cons_ne_nil f rest) hx).append (hpass f rest root hd)
  | _, _, .child hx hs, hw, r => by
      obtain ⟨hwd, hwds⟩ := hw
      obtain ⟨e, he, hpass⟩ := passes_written hx hwd r
      obtain ⟨es, hes, hpasses⟩ := passes_content hs hwds r
      refine ⟨e :: es, .cons he hes, fun f rest root hd => ?_⟩
      rw [depthAll] at hd
      have hfirst := hpass ⟨f :: rest, root⟩ _ (by rw [List.length_cons]; omega) rfl
      have hothers := hpasses { f with children := e :: f.children } rest root (by omega)
      have hframe : f.holding (e :: es) =
          Frame.holding { f with children := e :: f.children } es := by
        rw [Frame.holding, List.reverse_cons, List.append_assoc]
        rfl
      rw [hframe]
      exact hfirst.append hothers

end

/-! ## Documents -/

theorem ne_mark_of_margin {s : List Char} (h : Margin s) : '\uFEFF' ∉ s.head? := by
  induction h with
  | nil => nofun
  | @blanks b s hb _ ih =>
      cases b with
      | nil => exact ih
      | cons c b =>
          intro hc
          exact absurd (hb _ (List.mem_of_mem_head? hc)) (by decide)
  | aside hx _ _ =>
      cases hx with
      | comment | instruction => exact fun hc => absurd (Option.some.inj hc) (by decide)

theorem withoutMark_eq {s : List Char} (h : '\uFEFF' ∉ s.head?) : withoutMark s = s := by
  unfold withoutMark
  split
  · exact absurd rfl h
  · rfl

theorem withoutMark_document {d : Draft} {s : List Char} (h : Document d s) :
    withoutMark s = s := by
  refine withoutMark_eq ?_
  obtain @⟨before, s, after, hb, hw, -⟩ := h
  have hfirst : (s ++ after).head? = some '<' := by
    cases hw with
    | empty | element => rfl
  rw [List.head?_append]
  cases hh : before.head? with
  | none =>
      rw [Option.none_or, hfirst]
      decide
  | some c =>
      rw [Option.some_or, ← hh]
      exact ne_mark_of_margin hb

/-- A document is read as what its draft becomes where nothing is declared. -/
theorem exists_parse_of_document {d : Draft} {s : String} (h : Document d s.toList)
    (hw : d.WellFormed) (hd : d.depth ≤ maxDepth) :
    ∃ e, parse s = .ok e ∧ d.Becomes Scope.outermost e := by
  have hparse : parse s = Stand.read ⟨Reader.initial, Growth.initial⟩ 0 s.toList := by
    rw [parse, withoutMark_document h]
    rfl
  rw [hparse]
  generalize s.toList = t at h
  obtain @⟨before, x, after, hb, hx, ha⟩ := h
  obtain ⟨e, he, hpass⟩ := passes_written hx hw Reader.initial
  have helement := hpass Growth.initial ⟨[], some e⟩ ((Nat.zero_add _).trans_le hd) rfl
  have hall := (Stand.passes_margin _ hb).append (helement.append (Stand.passes_margin _ ha))
  have hend := hall 0 []
  rw [List.append_nil] at hend
  rw [hend]
  exact ⟨e, Stand.read_of_done rfl _, he⟩

/-! ## The shape of the tree -/

theorem bareAll_eq_map (es : List Element) : Element.bareAll es = es.map Element.bare := by
  induction es with
  | nil => rfl
  | cons e es ih => rw [Element.bareAll, ih, List.map_cons]

theorem elementAll_eq_map (ds : List Draft) : elementAll ds = ds.map element := by
  induction ds with
  | nil => rfl
  | cons d ds ih => rw [elementAll, ih, List.map_cons]

theorem at?_bare (address : List Nat) : ∀ e : Element,
    e.bare.at? address = (e.at? address).map Element.bare := by
  induction address with
  | nil => exact fun _ => rfl
  | cons i address ih =>
      rintro ⟨uri, name, attributes, es⟩
      rw [Element.bare, Element.at?, Element.at?, bareAll_eq_map, List.getElem?_map]
      cases es[i]? with
      | none => rfl
      | some e => exact ih e

theorem at?_element (address : List Nat) : ∀ d : Draft,
    d.element.at? address = (d.at? address).map element := by
  induction address with
  | nil => exact fun _ => rfl
  | cons i address ih =>
      rintro ⟨name, entries, ds⟩
      rw [element, Element.at?, Draft.at?, elementAll_eq_map, List.getElem?_map]
      cases ds[i]? with
      | none => rfl
      | some d => exact ih d

theorem hasElements_bare (e : Element) : e.bare.hasElements = e.hasElements := by
  obtain ⟨uri, name, attributes, es⟩ := e
  rw [Element.bare, bareAll_eq_map, Element.hasElements, Element.hasElements, List.isEmpty_map]

theorem hasElements_element (d : Draft) : d.element.hasElements = d.hasChildren := by
  obtain ⟨name, entries, ds⟩ := d
  rw [element, elementAll_eq_map, Element.hasElements, hasChildren, List.isEmpty_map]

theorem Draft.Becomes.hasElements_eq {scope : Scope} {d : Draft} {e : Element}
    (h : d.Becomes scope e) (address : List Nat) :
    (e.at? address).map Element.hasElements = (d.at? address).map hasChildren :=
  calc (e.at? address).map Element.hasElements
    _ = ((e.at? address).map Element.bare).map Element.hasElements := by
        rw [Option.map_map, show Element.hasElements ∘ Element.bare = Element.hasElements from
          funext hasElements_bare]
    _ = ((d.at? address).map element).map Element.hasElements := by
        rw [← at?_bare, h.bare, at?_element]
    _ = (d.at? address).map hasChildren := by
        rw [Option.map_map, show Element.hasElements ∘ element = hasChildren from
          funext hasElements_element]

/-- Every way of writing a well-formed draft is read, and as that draft: the same names, attributes
and children in the same order, and nothing more. What stands between the children has become none
of them, so an element has children exactly where the draft has. -/
theorem parse_of_document {d : Draft} {s : String} (h : Document d s.toList) (hw : d.WellFormed)
    (hd : d.depth ≤ maxDepth) :
    ∃ e, parse s = .ok e ∧ e.bare = d.element ∧
      ∀ address, (e.at? address).map Element.hasElements = (d.at? address).map hasChildren := by
  obtain ⟨e, he, hbecomes⟩ := exists_parse_of_document h hw hd
  exact ⟨e, he, hbecomes.bare, hbecomes.hasElements_eq⟩

/-- A draft with a prefix, a declaration and values that need care. -/
def noisyDraft : Draft :=
  .node ⟨some ['p'], ['a']⟩ [⟨⟨none, ['k']⟩, ['<', '\'']⟩]
    [.node ⟨none, ['b']⟩ [] [], .node ⟨none, ['c']⟩ [⟨⟨none, "xmlns".toList⟩, ['u', '>']⟩] []]

/-- A text that writes it, with much around that is none of it. -/
def noisyText : String :=
  "<!--<a>-->\n<p:a k='&lt;&#39;'>]]><b/><![CDATA[<e>]]><c xmlns=\"u>\"></c></p:a><?z?>"

theorem document_noisy : Document noisyDraft noisyText.toList := by
  have hspace : Blank [' '] := List.all_eq_true.1 rfl
  have hline : Blank ['\n'] := List.all_eq_true.1 rfl
  have hb : Written (.node ⟨none, ['b']⟩ [] []) ('<' :: (['b'] ++ []) ++ "/>".toList) :=
    .empty entries_nil
  have hdeclaration : Entries [⟨⟨none, "xmlns".toList⟩, ['u', '>']⟩]
      ([' '] ++ "xmlns".toList ++ '=' :: '"' :: (['u', '>'] ++ '"' :: [])) :=
    .cons nofun hspace (.inl rfl)
      (.itself (by decide) (by decide) (.itself (by decide) (by decide) .nil)) entries_nil
  have hnumber : Numeral 10 (['3'] ++ ['9']) '\''.toNat := .snoc (.digit (d := 3) rfl) (d := 9) rfl
  have hvalue : Spells '\'' ['<', '\'']
      ('&' :: ("lt".toList ++ ';' :: '&' :: ('#' :: (['3'] ++ ['9']) ++ ';' :: []))) :=
    .reference .lt (.reference (.decimal hnumber (by decide)) .nil)
  have hentries : Entries [⟨⟨none, ['k']⟩, ['<', '\'']⟩]
      ([' '] ++ ['k'] ++ '=' :: '\'' :: ("&lt;&#39;".toList ++ '\'' :: [])) :=
    .cons nofun hspace (.inr rfl) hvalue entries_nil
  have hbody : Content [.node ⟨none, ['b']⟩ [] [],
      .node ⟨none, ['c']⟩ [⟨⟨none, "xmlns".toList⟩, ['u', '>']⟩] []]
      ("]]>".toList ++ ("<b/>".toList ++ ("<![CDATA[".toList ++ "<e>".toList ++ "]]>".toList
        ++ ("<c xmlns=\"u>\"></c>".toList ++ [])))) :=
    .filler (.text (by decide))
      (.child hb (.filler (.cdata (by decide)) (.child (.element hdeclaration .nil) .nil)))
  have hbefore : Margin ("<!--".toList ++ "<a>".toList ++ "-->".toList ++ (['\n'] ++ [])) :=
    .aside (.comment (by decide)) (.blanks hline .nil)
  have hafter : Margin ("<?".toList ++ 'z' :: [] ++ "?>".toList ++ []) :=
    .aside (.instruction (by decide) (by decide)) .nil
  have htext : noisyText.toList =
      "<!--".toList ++ "<a>".toList ++ "-->".toList ++ (['\n'] ++ []) ++
        ('<' :: ("p:a".toList ++ " k='&lt;&#39;'".toList) ++ ['>'] ++
            "]]><b/><![CDATA[<e>]]><c xmlns=\"u>\"></c>".toList ++
            ("</".toList ++ "p:a".toList ++ ['>']) ++
          ("<?".toList ++ 'z' :: [] ++ "?>".toList ++ [])) := by
    simp [noisyText]
  rw [htext]
  exact .root hbefore (.element hentries hbody) hafter

theorem parse_of_document_noisy :
    Document noisyDraft noisyText.toList ∧ noisyDraft.WellFormed ∧ noisyDraft.depth ≤ maxDepth ∧
      ∃ e, parse noisyText = .ok e ∧ e.bare = noisyDraft.element ∧
        ∀ address, (e.at? address).map Element.hasElements =
          (noisyDraft.at? address).map hasChildren := by
  have hw : noisyDraft.WellFormed := by
    decide
  have hd : noisyDraft.depth ≤ maxDepth := by
    decide
  exact ⟨document_noisy, hw, hd, parse_of_document document_noisy hw hd⟩

end ActionSheet.Markup
