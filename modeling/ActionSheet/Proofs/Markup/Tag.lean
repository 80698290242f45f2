import ActionSheet.Proofs.Markup.Draft
import ActionSheet.Proofs.Markup.Lexical
import ActionSheet.Proofs.Markup.Piece
import Mathlib.Data.List.Forall2
import Mathlib.Data.List.TakeWhile

/-!
# Tags that write a draft

A tag is looked at three times: its end is found by its quotation marks, its declarations are
collected for the scope, and its attributes are read. For a tag that writes the entries of a
well-formed draft all three come out as they should, and each by the same induction over the
entries.

Positions inside the tag are the business of error messages and are left open here; what matters of
a written attribute is its key and the text between its quotation marks.
-/

namespace ActionSheet.Markup

open Text Draft

/-! ## Characters -/

theorem isBlank_of_isKeyNameChar {c : Char} (h : isKeyNameChar c = true) : isBlank c = false := by
  have hne : ∀ {d : Char}, isKeyNameChar d = false → (c == d) = false :=
    fun hd => beq_false_of_ne (ne_of_class hd h).symm
  rw [isBlank, hne (by decide), hne (by decide), hne (by decide), hne (by decide)]
  rfl

theorem isKeyChar_of_isKeyNameChar {c : Char} (h : isKeyNameChar c = true) :
    isKeyChar c = true := by
  have hne : c ≠ '=' := (ne_of_class (show isKeyNameChar '=' = false from rfl) h).symm
  rw [isKeyChar, isBlank_of_isKeyNameChar h, decide_eq_true hne]
  rfl

theorem isBlank_quote {c : Char} (h : c = '"' ∨ c = '\'') : isBlank c = false := by
  rcases h with rfl | rfl
  · rfl
  · rfl

/-! ## Where a tag ends -/

theorem quoteThrough_class {p : Char → Bool} (hp : p '>' = false ∧ p '"' = false ∧ p '\'' = false)
    {s : List Char} (h : ∀ c ∈ s, p c = true) : quoteThrough none s = some none := by
  obtain ⟨hgt, hd, hs⟩ := hp
  induction s with
  | nil => rfl
  | cons c s ih =>
      have hc := h c List.mem_cons_self
      have hend : ¬(c = '>' ∧ (none : Option Char) = none) := fun he => ne_of_class hgt hc he.1.symm
      have hquote : ¬(c = '"' ∨ c = '\'') :=
        not_or.2 ⟨(ne_of_class hd hc).symm, (ne_of_class hs hc).symm⟩
      rw [quoteThrough, if_neg hend, quoteAfter, if_neg hquote]
      exact ih fun x hx => h x (List.mem_cons_of_mem _ hx)

theorem quoteThrough_value {quote : Char} {s : List Char} (h : ∀ c ∈ s, c ≠ quote) :
    quoteThrough (some quote) s = some (some quote) := by
  induction s with
  | nil => rfl
  | cons c s ih =>
      have hafter : quoteAfter c (some quote) = some quote := if_neg (h c List.mem_cons_self)
      have hopen : ¬(c = '>' ∧ some quote = none) := fun hc => nomatch hc.2
      rw [quoteThrough, if_neg hopen, hafter]
      exact ih fun x hx => h x (List.mem_cons_of_mem _ hx)

theorem quoteThrough_quoted {quote : Char} (hq : quote = '"' ∨ quote = '\'') {s t : List Char}
    (hs : ∀ c ∈ s, c ≠ quote) (ht : quoteThrough none t = some none) :
    quoteThrough none (quote :: (s ++ quote :: t)) = some none := by
  have hgt : quote ≠ '>' := by
    rcases hq with rfl | rfl
    · decide
    · decide
  rw [quoteThrough, if_neg fun hc => hgt hc.1, quoteAfter, if_pos hq, quoteThrough_append,
    quoteThrough_value hs, Option.bind_some, quoteThrough, if_neg fun hc => hgt hc.1, quoteAfter,
    if_pos rfl]
  exact ht

theorem quoteThrough_chars {n : Name} (h : n.IsPlain) : quoteThrough none n.chars = some none :=
  quoteThrough_class (by decide) h.chars_spec.2

theorem quoteThrough_blank {b : List Char} (h : Blank b) : quoteThrough none b = some none :=
  quoteThrough_class (by decide) h

theorem quoteThrough_entries {as : List Entry} {s : List Char} (h : Entries as s)
    (hplain : ∀ a ∈ as, a.name.IsPlain) : quoteThrough none s = some none := by
  induction h with
  | nil hb => exact quoteThrough_blank hb
  | @cons a as gap spelling s quote _ hb hq hsp _ ih =>
      have hrest := ih fun x hx => hplain x (List.mem_cons_of_mem _ hx)
      have hquoted := quoteThrough_quoted hq (hsp.ne_quote hq) hrest
      rw [quoteThrough_append, quoteThrough_append, quoteThrough_blank hb, Option.bind_some,
        quoteThrough_chars (hplain a List.mem_cons_self), Option.bind_some, quoteThrough,
        if_neg (by decide), quoteAfter, if_neg (by decide)]
      exact hquoted

theorem getLast?_append_cons_ne {x s : List Char} {c : Char} (hc : c ≠ '/')
    (hs : s.getLast? ≠ some '/') : (x ++ c :: s).getLast? ≠ some '/' := by
  rw [List.getLast?_append, List.getLast?_cons, Option.some_or]
  cases hl : s.getLast? with
  | none => exact fun h => hc (Option.some.inj h)
  | some d => exact fun h => hs (hl.trans h)

theorem getLast?_entries_ne {as : List Entry} {s : List Char} (h : Entries as s) :
    s.getLast? ≠ some '/' := by
  induction h with
  | @nil gap hb =>
      intro hl
      exact absurd (hb '/' (List.mem_of_getLast? hl)) (by decide)
  | @cons a as gap spelling s quote _ _ hq _ _ ih =>
      have hslash : quote ≠ '/' := by
        rcases hq with rfl | rfl
        · decide
        · decide
      rw [← List.cons_append, ← List.cons_append, ← List.append_assoc]
      exact getLast?_append_cons_ne hslash ih

/-! ## Name and attributes -/

theorem isBlank_of_entries {as : List Entry} {s : List Char} (h : Entries as s) :
    ∀ c ∈ s.head?, isBlank c = true := by
  intro c hc
  cases h with
  | nil hb => exact hb c (List.mem_of_mem_head? hc)
  | @cons a as gap spelling s quote hne hb _ _ _ =>
      cases gap with
      | nil => exact absurd rfl hne
      | cons g gap =>
          have hcg : g = c := Option.some.inj hc
          exact hcg ▸ hb g List.mem_cons_self

theorem tagName_eq {n : Name} (hn : n.IsPlain) {s : List Char}
    (hs : ∀ c ∈ s.head?, isBlank c = true) :
    tagName (n.chars ++ s) = n.chars ∧ tagRest (n.chars ++ s) = s := by
  have hno : ∀ c ∈ n.chars, (!isBlank c) = true := by
    intro c hc
    rw [isBlank_of_isKeyNameChar (hn.chars_spec.2 c hc)]
    rfl
  rw [tagName, tagRest, List.takeWhile_append_of_pos hno, List.dropWhile_append_of_pos hno]
  cases s with
  | nil => exact ⟨List.append_nil _, rfl⟩
  | cons c s =>
      have hc : isBlank c = true := hs c rfl
      rw [List.takeWhile_cons, List.dropWhile_cons, hc]
      exact ⟨List.append_nil _, rfl⟩

theorem scanValue_eq {key : List Char} {start position : Nat} {quote : Char}
    (hq : quote = '"' ∨ quote = '\'') {spelling : List Char} (hs : ∀ c ∈ spelling, c ≠ quote)
    (rest : List Char) : ∃ after,
      scanValue key start position (quote :: (spelling ++ quote :: rest)) =
        .attribute ⟨key, start, spelling⟩ after rest := by
  have hne : ∀ c ∈ spelling, decide (c ≠ quote) = true := fun c hc => decide_eq_true (hs c hc)
  have hstop : (quote :: rest).dropWhile (· ≠ quote) = quote :: rest := by
    rw [List.dropWhile_cons, if_neg (by simp)]
  have hnone : (quote :: rest).takeWhile (· ≠ quote) = [] := by
    rw [List.takeWhile_cons, if_neg (by simp)]
  rw [scanValue, List.dropWhile_cons, isBlank_quote hq, if_neg Bool.false_ne_true]
  simp only [if_pos hq, List.dropWhile_append_of_pos hne, List.takeWhile_append_of_pos hne, hstop,
    hnone, List.append_nil]
  exact ⟨_, rfl⟩

/-- An entry is read as it is written, if its key has not been seen. -/
theorem scanAttribute_eq {a : Entry} (hn : a.name.IsPlain) {gap spelling : List Char}
    (hgap : Blank gap) {quote : Char} (hq : quote = '"' ∨ quote = '\'')
    (hsp : Spells quote a.value spelling) {seen : List (List Char × Nat)}
    (hseen : seen.lookup a.name.chars = none) (position : Nat) (rest : List Char) : ∃ start after,
      scanAttribute seen position
          (gap ++ a.name.chars ++ '=' :: quote :: (spelling ++ quote :: rest)) =
        .attribute ⟨a.name.chars, start, spelling⟩ after rest := by
  obtain ⟨hne, hall⟩ := hn.chars_spec
  cases hkey : a.name.chars with
  | nil => exact absurd hkey hne
  | cons c k =>
      rw [hkey] at hall hseen
      have hfirst : isBlank c = false := isBlank_of_isKeyNameChar (hall c List.mem_cons_self)
      have hk : ∀ x ∈ k, isKeyChar x = true := fun x hx =>
        isKeyChar_of_isKeyNameChar (hall x (List.mem_cons_of_mem _ hx))
      have hstart : ∀ r, (gap ++ c :: k ++ r).dropWhile isBlank = c :: (k ++ r) := by
        intro r
        rw [List.append_assoc, List.dropWhile_append_of_pos hgap, List.cons_append,
          List.dropWhile_cons, hfirst, if_neg Bool.false_ne_true]
      have htake : ∀ r, (k ++ '=' :: r).takeWhile isKeyChar = k := by
        intro r
        rw [List.takeWhile_append_of_pos hk]
        exact List.append_nil k
      have hdrop : ∀ r, (k ++ '=' :: r).dropWhile isKeyChar = '=' :: r :=
        fun r => List.dropWhile_append_of_pos hk
      have hequals : ∀ r, ('=' :: r).dropWhile isBlank = '=' :: r := fun _ => rfl
      simp only [scanAttribute, hstart, htake, hdrop, hequals, hseen]
      obtain ⟨after, hvalue⟩ := scanValue_eq hq (hsp.ne_quote hq) rest
      exact ⟨_, after, hvalue⟩

theorem Name.IsPlain.chars_inj {n m : Name} (hn : n.IsPlain) (hm : m.IsPlain)
    (h : n.chars = m.chars) : n = m := by
  rw [← hn.ofChars_chars, h, hm.ofChars_chars]

/-- An attribute as it is written has the key of an entry, and its value in some spelling. -/
def Entry.IsWrittenAs (a : Entry) (w : WrittenAttribute) : Prop :=
  w.key = a.name.chars ∧ ∃ quote, Spells quote a.value w.value

theorem walkAttributes_eq (unique : Bool) (seen : List (List Char × Nat)) (position : Nat)
    (s : List Char) :
    walkAttributes unique seen position s =
      match scanAttribute seen position s with
      | .done => ([], none)
      | .fault f => ([], some f)
      | .attribute a after rest =>
        (fun (more, fault) => (a :: more, fault))
          (walkAttributes unique (if unique then (a.key, a.position) :: seen else seen) after
            rest) := by
  rw [walkAttributes]
  split
  · next h => rw [h]
  · next h => rw [h]
  · next h => rw [h]

/-- The walk over the entries of a tag finds them all in order and no fault. -/
theorem walkAttributes_of_entries {unique : Bool} {as : List Entry} {s : List Char}
    (h : Entries as s) : (∀ a ∈ as, a.name.IsPlain) → (as.map (·.name)).Nodup →
    ∀ {seen : List (List Char × Nat)} (position : Nat),
      (∀ a ∈ as, seen.lookup a.name.chars = none) →
      ∃ ws, walkAttributes unique seen position s = (ws, none) ∧
        List.Forall₂ Entry.IsWrittenAs as ws := by
  induction h with
  | @nil gap hb =>
      intro _ _ seen position _
      have hdone : scanAttribute seen position gap = .done := by
        have hdrop : gap.dropWhile isBlank = [] := List.dropWhile_eq_nil_iff.2 hb
        rw [scanAttribute, hdrop]
      exact ⟨[], by rw [walkAttributes_eq, hdone], .nil⟩
  | @cons a as gap spelling s quote _ hb hq hsp _ ih =>
      intro hplain hnodup seen position hseen
      have ha := hplain a List.mem_cons_self
      obtain ⟨hfresh, hnodup⟩ := List.nodup_cons.1 hnodup
      obtain ⟨start, after, hscan⟩ :=
        scanAttribute_eq ha hb hq hsp (hseen a List.mem_cons_self) position s
      -- Every other key differs from this one, so it is still new when its turn comes.
      have hnext : ∀ x ∈ as,
          (if unique then (a.name.chars, start) :: seen else seen).lookup x.name.chars = none := by
        intro x hx
        have hold := hseen x (List.mem_cons_of_mem _ hx)
        have hne : x.name.chars ≠ a.name.chars := by
          intro he
          have hname := (hplain x (List.mem_cons_of_mem _ hx)).chars_inj ha he
          exact hfresh (List.mem_map.2 ⟨x, hx, hname⟩)
        cases unique with
        | false => exact hold
        | true =>
            rw [if_pos rfl, List.lookup_cons, beq_false_of_ne hne]
            exact hold
      obtain ⟨ws, hws, hall⟩ :=
        ih (fun x hx => hplain x (List.mem_cons_of_mem _ hx)) hnodup after hnext
      refine ⟨⟨a.name.chars, start, spelling⟩ :: ws, ?_, .cons ⟨rfl, quote, hsp⟩ hall⟩
      rw [walkAttributes_eq, hscan]
      simp only [hws]

/-! ## The whole tag -/

/-- What a tag needs to write an element of a well-formed draft, given what follows its name. -/
structure WritesTag (n : Name) (as : List Entry) (s : List Char) : Prop where
  name : n.IsPlain
  entries : Entries as s
  permitted : ∀ a ∈ as, a.name.IsPlain ∧ a.IsPermitted
  nodup : (as.map (·.name)).Nodup

/-- A written attribute is read as the entry that it writes. -/
theorem Entry.IsWrittenAs.read_eq {a : Entry} {w : WrittenAttribute} (h : a.IsWrittenAs w)
    (hn : a.name.IsPlain) : w.read = .ok a.toAttribute := by
  obtain ⟨hkey, quote, hsp⟩ := h
  rw [WrittenAttribute.read, expand_of_spells hsp, hkey, hn.ofChars_chars]
  rfl

theorem mapM_read_eq {as : List Entry} {ws : List WrittenAttribute}
    (h : List.Forall₂ Entry.IsWrittenAs as ws) (hplain : ∀ a ∈ as, a.name.IsPlain) :
    ws.mapM WrittenAttribute.read = .ok (as.map Entry.toAttribute) := by
  induction h with
  | nil => rfl
  | cons hw _ ih =>
      rw [List.mapM_cons, hw.read_eq (hplain _ List.mem_cons_self),
        ih fun x hx => hplain x (List.mem_cons_of_mem _ hx)]
      rfl

namespace WritesTag

variable {n : Name} {as : List Entry} {s : List Char}

theorem plain (h : WritesTag n as s) : ∀ a ∈ as, a.name.IsPlain :=
  fun a ha => (h.permitted a ha).1

/-- The reader finds the end of the tag. -/
theorem tagText (h : WritesTag n as s) : Token.TagText (n.chars ++ s) := by
  obtain ⟨hne, hall⟩ := h.name.chars_spec
  refine ⟨?_, ?_⟩
  · rw [quoteThrough_append, quoteThrough_chars h.name]
    exact quoteThrough_entries h.entries h.plain
  · cases hc : n.chars with
    | nil => exact absurd hc hne
    | cons c r =>
        have hfirst := hall c (hc ▸ List.mem_cons_self)
        have hne : ∀ {d : Char}, isKeyNameChar d = false → c ≠ d :=
          fun hd => (ne_of_class hd hfirst).symm
        exact ⟨c, r ++ s, rfl, hne (by decide), hne (by decide), hne (by decide)⟩

theorem getLast?_ne (h : WritesTag n as s) : (n.chars ++ s).getLast? ≠ some '/' := by
  rw [List.getLast?_append]
  cases hl : s.getLast? with
  | none =>
      rw [Option.none_or]
      intro hlast
      exact absurd (h.name.chars_spec.2 '/' (List.mem_of_getLast? hlast)) (by decide)
  | some c =>
      rw [Option.some_or]
      exact fun he => getLast?_entries_ne h.entries (hl.trans he)

theorem tagName_eq (h : WritesTag n as s) : tagName (n.chars ++ s) = n.chars :=
  (Markup.tagName_eq h.name (isBlank_of_entries h.entries)).1

theorem ofChars_tagName (h : WritesTag n as s) : Name.ofChars (tagName (n.chars ++ s)) = n := by
  rw [h.tagName_eq, h.name.ofChars_chars]

theorem exists_written (h : WritesTag n as s) (unique : Bool) :
    ∃ ws, writtenAttributes unique (n.chars ++ s) = (ws, none) ∧
      List.Forall₂ Entry.IsWrittenAs as ws := by
  rw [writtenAttributes, (Markup.tagName_eq h.name (isBlank_of_entries h.entries)).2]
  exact walkAttributes_of_entries h.entries h.plain h.nodup _ fun _ _ => rfl

theorem readAttributes_eq (h : WritesTag n as s) :
    readAttributes (n.chars ++ s) = .ok (as.map Entry.toAttribute) := by
  obtain ⟨ws, hws, hall⟩ := h.exists_written true
  rw [readAttributes, hws]
  show (ws.mapM WrittenAttribute.read >>= fun x => .ok x) = _
  rw [mapM_read_eq hall h.plain]
  rfl

theorem openFrame_eq (h : WritesTag n as s) (uri : Option String) :
    Growth.openFrame uri (n.chars ++ s) =
      .ok ⟨uri, String.ofList n.part, as.map Entry.toAttribute, []⟩ := by
  rw [Growth.openFrame, h.readAttributes_eq, h.ofChars_tagName]
  rfl

end WritesTag

/-! ## Declarations -/

theorem Entry.IsWrittenAs.value_ne {a : Entry} {w : WrittenAttribute} (h : a.IsWrittenAs w)
    {uri : List Char} (ha : '&' ∉ uri) (hne : a.value ≠ uri) : w.value ≠ uri := by
  obtain ⟨-, quote, hsp⟩ := h
  rintro rfl
  exact hne (hsp.eq_of_not_mem ha).symm

/-- An entry that is permitted binds something or nothing, and nothing if it declares nothing. -/
theorem Entry.IsWrittenAs.exists_binding {a : Entry} {w : WrittenAttribute} (h : a.IsWrittenAs w)
    (hn : a.name.IsPlain) (hp : a.IsPermitted) :
    ∃ b, w.binding? = .ok b ∧ (¬a.IsDeclaration → b = none) := by
  have hname : a.name = Name.ofChars w.key := by
    rw [h.1, hn.ofChars_chars]
  unfold WrittenAttribute.binding?
  split
  · next hk =>
      rw [hk] at hname
      exact ⟨_, rfl, fun hd => absurd (.inr hname) hd⟩
  · split
    · next hpre =>
        obtain ⟨p, hkey⟩ := List.isPrefixOf_iff_prefix.1 hpre
        rw [← hkey] at hname ⊢
        have hsplit : Name.ofChars ("xmlns:".toList ++ p) = ⟨some "xmlns".toList, p⟩ := rfl
        have hdrop : ("xmlns:".toList ++ p).drop 6 = p := rfl
        rw [hsplit] at hname
        obtain ⟨hx, hxs, hv, hvs⟩ := hp (hname ▸ rfl)
        rw [hname] at hx hxs
        rw [hdrop]
        dsimp only
        rw [if_neg hx, if_neg]
        · exact ⟨_, rfl, fun hd => absurd (.inl (hname ▸ rfl)) hd⟩
        · rintro (he | he | he)
          · exact hxs he
          · exact h.value_ne (by decide) hv he
          · exact h.value_ne (by decide) hvs he
    · exact ⟨none, rfl, fun _ => rfl⟩

theorem exists_declareAll {as : List Entry} {ws : List WrittenAttribute}
    (h : List.Forall₂ Entry.IsWrittenAs as ws) :
    (∀ a ∈ as, a.name.IsPlain ∧ a.IsPermitted) → ∀ scope : Scope,
      ∃ inner, scope.declareAll ws = .ok inner ∧
        ((∀ a ∈ as, ¬a.IsDeclaration) → inner = scope) := by
  induction h with
  | nil => exact fun _ scope => ⟨scope, rfl, fun _ => rfl⟩
  | @cons a w as ws hw _ ih =>
      intro hall scope
      obtain ⟨ha, hp⟩ := hall a List.mem_cons_self
      obtain ⟨b, hb, hnone⟩ := hw.exists_binding ha hp
      obtain ⟨inner, hinner, hsame⟩ :=
        ih (fun x hx => hall x (List.mem_cons_of_mem _ hx)) (b.toList ++ scope)
      refine ⟨inner, ?_, fun hno => ?_⟩
      · rw [Scope.declareAll_cons, hb]
        exact hinner
      · rw [hsame fun x hx => hno x (List.mem_cons_of_mem _ hx),
          hnone (hno a List.mem_cons_self)]
        rfl

/-- A tag of a well-formed draft can be entered, and without a declaration it changes nothing. -/
theorem WritesTag.exists_enter {n : Name} {as : List Entry} {s : List Char} (h : WritesTag n as s)
    (scope : Scope) :
    ∃ inner, scope.enter (n.chars ++ s) = .ok inner ∧
      ((∀ a ∈ as, ¬a.IsDeclaration) → inner = scope) := by
  obtain ⟨ws, hws, hwritten⟩ := h.exists_written false
  rw [Scope.enter, hws]
  exact exists_declareAll hwritten h.permitted scope

end ActionSheet.Markup
