import ActionSheet.Proofs.Markup.Refusal
import ActionSheet.Proofs.Markup.Lexical

/-!
# Open elements and open tags

Two stacks are kept while a document is read. The reader keeps the tags that are open, and the
builder the elements that it has not completed. Neither sees the other's, and they do not move for
the same reasons: a tag that closes itself makes an element that never waits, and an end tag has to
pass the reader before the builder closes anything.

They stay in step because both follow one list of tags. `Stand.HasOpen` says so of one moment;
reading a token keeps it (`Stand.HasOpen.takes`), so it holds at every moment of a run
(`Stand.Reaches.exists_hasOpen`), whether the run comes to a tree or to a fault. An end tag that has
passed the reader therefore finds an element to close.

`Cause.unexpectedEnd` is how the builder would say that there is none. Nothing else says it
(`Growth.step_eq_unexpectedEnd_iff`, `Reader.step_ne_unexpectedEnd`, `Token.spares_next`), and no
other cause is worded like it (`Cause.message_ne`), so no text is refused for it.
-/

namespace ActionSheet.Markup

/-- The local name of an open tag. -/
def OpenTag.localName (t : OpenTag) : String :=
  String.ofList (Name.ofChars t.name).part

/-! ## One token -/

theorem Reader.Inside.names_eq {tags : List Tag} {r : Reader} (h : Reader.Inside tags r) :
    r.opened.map (·.name) = tags.map tagName := by
  induction h with
  | outermost => rfl
  | inside _ _ ih => exact congrArg (_ :: ·) ih

/-- The tags around the reader change as an event says. -/
theorem Reader.Inside.step {tags : List Tag} {r r' : Reader} {t : Token} {e : Event}
    (h : Reader.Inside tags r) (hr : r.step t = .ok (e, r')) :
    Reader.Inside (e.tagsAfter tags) r' := by
  cases t with
  | text | cdata | comment | instruction | doctype =>
      cases hr
      exact h
  | opening tag =>
      obtain ⟨scope, henter, hok⟩ := bind_eq_ok.1 hr
      cases hok
      exact .inside h henter
  | empty tag =>
      obtain ⟨scope, -, hok⟩ := bind_eq_ok.1 hr
      cases hok
      exact h
  | closing name =>
      cases h with
      | outermost => cases hr
      | @inside around r tag scope h henter =>
          dsimp only [Reader.step] at hr
          split at hr
          · cases hr
            exact h
          · cases hr

/-- An end tag passes the reader only where a tag is open. -/
theorem Reader.opened_ne_nil_of_finish {r r' : Reader} {t : Token}
    (h : r.step t = .ok (.finish, r')) : r.opened ≠ [] := by
  intro hnil
  cases t with
  | text | cdata | comment | instruction | doctype => cases h
  | opening tag | empty tag =>
      obtain ⟨scope, -, hok⟩ := bind_eq_ok.1 h
      cases hok
  | closing name =>
      rw [step, hnil] at h
      cases h

namespace Stand

/-- The tags that are open where reading stands, the innermost first: the reader is inside of them,
and the elements that wait are theirs. -/
structure HasOpen (a : Stand) (tags : List Tag) : Prop where
  reader : Reader.Inside tags a.reader
  growth : a.growth.stack.map (·.name) = tags.map Markup.localName

theorem HasOpen.takes {a b : Stand} {tags : List Tag} {t : Token} (h : a.HasOpen tags)
    (ht : a.Takes t b) : ∃ tags', b.HasOpen tags' := by
  obtain ⟨e, hr, hg⟩ := ht
  exact ⟨e.tagsAfter tags, h.reader.step hr, (Growth.step_eq_ok.1 hg).names_eq h.growth⟩

/-- The elements that wait are called as the tags that are open, one for one. -/
theorem HasOpen.names_eq {a : Stand} {tags : List Tag} (h : a.HasOpen tags) :
    a.growth.stack.map (·.name) = a.reader.opened.map (·.localName) := by
  calc a.growth.stack.map (·.name)
      = (tags.map tagName).map (fun n => String.ofList (Name.ofChars n).part) := by
        rw [h.growth, List.map_map]
        rfl
    _ = a.reader.opened.map (·.localName) := by
        rw [← h.reader.names_eq, List.map_map]
        rfl

theorem HasOpen.length_eq {a : Stand} {tags : List Tag} (h : a.HasOpen tags) :
    a.growth.stack.length = a.reader.opened.length := by
  have hlength := congrArg List.length h.names_eq
  rwa [List.length_map, List.length_map] at hlength

theorem HasOpen.name_eq {a : Stand} {tags : List Tag} {i : Nat} {f : Frame} {t : OpenTag}
    (h : a.HasOpen tags) (hf : a.growth.stack[i]? = some f) (ht : a.reader.opened[i]? = some t) :
    f.name = t.localName := by
  have hi := congrArg (·[i]?) h.names_eq
  simpa only [List.getElem?_map, hf, ht, Option.map_some, Option.some_inj] using hi

end Stand

/-! ## Who can miss an open element -/

theorem exists_error_of_mapM {ε α β : Type} {f : α → Except ε β} {c : ε} {l : List α}
    (h : l.mapM f = .error c) : ∃ a ∈ l, f a = .error c := by
  induction l with
  | nil => cases h
  | cons a l ih =>
      rw [List.mapM_cons, bind_eq_error] at h
      rcases h with ha | ⟨b, -, h⟩
      · exact ⟨a, List.mem_cons_self, ha⟩
      · rcases bind_eq_error.1 h with hl | ⟨bs, -, h⟩
        · obtain ⟨x, hx, hf⟩ := ih hl
          exact ⟨x, List.mem_cons_of_mem a hx, hf⟩
        · cases h

theorem WrittenAttribute.read_ne_unexpectedEnd (a : WrittenAttribute) :
    a.read ≠ .error .unexpectedEnd := by
  rw [read]
  split <;> nofun

theorem readAttributes_ne_unexpectedEnd (tag : List Char) :
    readAttributes tag ≠ .error .unexpectedEnd := by
  rw [readAttributes]
  obtain ⟨written, fault⟩ := writtenAttributes true tag
  intro h
  rcases bind_eq_error.1 h with hread | ⟨attributes, -, h⟩
  · obtain ⟨a, -, ha⟩ := exists_error_of_mapM hread
    exact a.read_ne_unexpectedEnd ha
  · cases fault <;> cases h

theorem Scope.declareAll_ne_unexpectedEnd (scope : Scope) (written : List WrittenAttribute) :
    scope.declareAll written ≠ .error .unexpectedEnd := by
  induction written generalizing scope with
  | nil => nofun
  | cons a rest ih =>
      intro h
      rcases bind_eq_error.1 h with hbinding | ⟨b, -, h⟩
      · revert hbinding
        rw [WrittenAttribute.binding?]
        dsimp only
        split_ifs <;> nofun
      · cases b with
        | none => exact ih scope h
        | some b => exact ih (b :: scope) h

theorem Reader.step_ne_unexpectedEnd (r : Reader) (t : Token) :
    r.step t ≠ .error .unexpectedEnd := by
  intro h
  cases t with
  | text | cdata | comment | instruction | doctype => cases h
  | opening tag | empty tag =>
      rcases bind_eq_error.1 h with henter | ⟨scope, -, h⟩
      · exact Scope.declareAll_ne_unexpectedEnd _ _ henter
      · cases h
  | closing name =>
      rw [step] at h
      split at h
      · cases h
      · split at h <;> cases h

namespace Growth

theorem openFrame_ne_unexpectedEnd (uri : Option String) (tag : List Char) :
    openFrame uri tag ≠ .error .unexpectedEnd := by
  intro h
  rcases bind_eq_error.1 h with hread | ⟨attributes, -, h⟩
  · exact readAttributes_ne_unexpectedEnd tag hread
  · cases h

theorem attach_ne_unexpectedEnd (g : Growth) (e : Element) :
    g.attach e ≠ .error .unexpectedEnd := by
  rw [attach]
  split <;> nofun

/-- The builder misses an open element exactly where one is to close and none waits. -/
theorem step_eq_unexpectedEnd_iff {g : Growth} {e : Event} :
    g.step e = .error .unexpectedEnd ↔ e = .finish ∧ g.stack = [] := by
  constructor
  · intro h
    cases e with
    | start uri tag =>
        rw [step] at h
        split at h
        · cases h
        · rcases bind_eq_error.1 h with hopen | ⟨f, -, h⟩
          · exact absurd hopen (openFrame_ne_unexpectedEnd uri tag)
          · cases h
    | empty uri tag =>
        rcases bind_eq_error.1 h with hopen | ⟨f, -, h⟩
        · exact absurd hopen (openFrame_ne_unexpectedEnd uri tag)
        · exact absurd h (attach_ne_unexpectedEnd g _)
    | finish =>
        rw [step] at h
        split at h
        · next hs => exact ⟨rfl, hs⟩
        · exact absurd h (attach_ne_unexpectedEnd _ _)
    | text content =>
        rw [step] at h
        split at h <;> cases h
    | cdata =>
        rw [step] at h
        split at h <;> cases h
    | skipped => cases h
  · rintro ⟨rfl, hs⟩
    rw [step, hs]

end Growth

/-- Where the stacks are in step, the builder takes whatever end tag has passed the reader as the end
of an element. -/
theorem Stand.HasOpen.not_refuses {a : Stand} {tags : List Tag} (h : a.HasOpen tags) (t : Token) :
    ¬a.Refuses t .unexpectedEnd := by
  rintro (hr | ⟨e, r, hr, hg⟩)
  · exact a.reader.step_ne_unexpectedEnd t hr
  · obtain ⟨rfl, hs⟩ := Growth.step_eq_unexpectedEnd_iff.1 hg
    have hlength := h.length_eq
    rw [hs] at hlength
    exact Reader.opened_ne_nil_of_finish hr (List.eq_nil_of_length_eq_zero hlength.symm)

/-! ## The scanners -/

/-- A finding that is a token, or a fault of another kind than a missing element. -/
def Scan.Spares : Scan → Prop
  | .fault cause _ => cause ≠ .unexpectedEnd
  | _ => True

theorem Scan.spares_fault {cause : Cause} (h : cause ≠ .unexpectedEnd) (width : Nat) :
    (fault cause width).Spares := h

theorem Scan.spares_after {width : Nat} {x : Scan} : (x.after width).Spares ↔ x.Spares := by
  cases x <;> exact Iff.rfl

namespace Token

theorem spares_upTo (mark content : List Char) (begins : List Char → Bool) (t : Token)
    {cause : Cause} (h : cause ≠ .unexpectedEnd) : (upTo mark content begins t cause).Spares := by
  unfold upTo
  split
  · exact Scan.spares_fault h _
  · dsimp only
    split
    · trivial
    · exact Scan.spares_fault h _

theorem spares_scanComment (r : List Char) : (scanComment r).Spares := by
  unfold scanComment
  split
  · exact Scan.spares_fault (by decide) _
  · exact Scan.spares_after.2 (spares_upTo _ _ _ _ (by decide))

theorem spares_scanDoctype (r : List Char) : (scanDoctype r).Spares := by
  unfold scanDoctype
  split
  · exact Scan.spares_fault (by decide) _
  · dsimp only
    split
    · exact Scan.spares_fault (by decide) _
    · split
      · exact Scan.spares_fault (by decide) _
      · trivial

theorem spares_scanClosing (r : List Char) : (scanClosing r).Spares := by
  unfold scanClosing
  split
  · exact Scan.spares_fault (by decide) _
  · trivial

theorem spares_scanOpening (r : List Char) : (scanOpening r).Spares := by
  unfold scanOpening
  split
  · exact Scan.spares_fault (by decide) _
  · trivial

theorem spares_scanMarkup (r : List Char) : (scanMarkup r).Spares := by
  unfold scanMarkup
  split
  · exact spares_upTo _ _ _ _ (by decide)
  · exact Scan.spares_after.2 (spares_scanComment _)
  · split
    · exact spares_scanDoctype _
    · exact Scan.spares_fault (by decide) _
  · exact Scan.spares_fault (by decide) _
  · exact spares_upTo _ _ _ _ (by decide)
  · exact Scan.spares_after.2 (spares_scanClosing _)
  · exact spares_scanOpening _

theorem spares_next (s : List Char) : (next s).Spares := by
  rw [next, Scan.spares_after]
  unfold scanPiece
  split
  · trivial
  · split
    · exact Scan.spares_after.2 (spares_scanMarkup _)
    · trivial

end Token

/-! ## Runs -/

namespace Stand

/-- Reading gets from one moment to another: from where it stands in front of a text, token by token
and over so many bytes, to where it stands in front of what is left of it. -/
inductive Reaches : Stand → List Char → Nat → Stand → List Char → Prop
  | here {a : Stand} {s : List Char} : Reaches a s 0 a s
  | later {a b c : Stand} {s rest left : List Char} {t : Token} {width n : Nat} :
      Token.next s = .token t width rest → a.Takes t b → Reaches b rest n c left →
      Reaches a s (width + n) c left

/-- What becomes of a text is what becomes of the rest of it, from any moment of its reading. -/
theorem Reaches.read_eq {a b : Stand} {s left : List Char} {n : Nat} (h : a.Reaches s n b left)
    (position : Nat) : a.read position s = b.read (position + n) left := by
  induction h generalizing position with
  | here => rfl
  | later hn ht _ ih => rw [read_of_next hn ht, ih, Nat.add_assoc]

theorem Reaches.exists_hasOpen {a b : Stand} {s left : List Char} {n : Nat}
    (h : a.Reaches s n b left) {tags : List Tag} (ha : a.HasOpen tags) :
    ∃ tags', b.HasOpen tags' := by
  induction h generalizing tags with
  | here => exact ⟨tags, ha⟩
  | later _ ht _ ih =>
      obtain ⟨tags', hb⟩ := ha.takes ht
      exact ih hb

/-- No text is refused for want of an open element. -/
theorem RefusedAt.cause_ne {a : Stand} {s : List Char} {n : Nat} {cause : Cause}
    (h : a.RefusedAt s n cause) {tags : List Tag} (ha : a.HasOpen tags) :
    cause ≠ .unexpectedEnd := by
  induction h generalizing tags with
  | @fault _ s _ _ hn =>
      have hspares := Token.spares_next s
      rw [hn] at hspares
      exact hspares
  | refused _ ht =>
      rintro rfl
      exact ha.not_refuses _ ht
  | later _ ht _ ih =>
      obtain ⟨tags', hb⟩ := ha.takes ht
      exact ih hb

/-- Where reading begins. -/
def initial : Stand := ⟨Reader.initial, Growth.initial⟩

theorem hasOpen_initial : initial.HasOpen [] := ⟨.outermost, rfl⟩

end Stand

/-! ## Wording -/

/-- A text that does not begin as the words for a missing element do. -/
def BeginsOtherwise (s : String) : Prop :=
  s.toList.head?.any (· != 'u') = true

instance (s : String) : Decidable (BeginsOtherwise s) :=
  inferInstanceAs (Decidable (_ = _))

theorem BeginsOtherwise.append {s : String} (h : BeginsOtherwise s) (t : String) :
    BeginsOtherwise (s ++ t) := by
  rw [BeginsOtherwise] at h ⊢
  rw [String.toList_append]
  cases hs : s.toList with
  | nil =>
      rw [hs] at h
      cases h
  | cons c r =>
      rw [hs] at h
      exact h

theorem BeginsOtherwise.ne {s : String} (h : BeginsOtherwise s) : s ≠ "unexpected closing tag" := by
  rintro rfl
  exact absurd h (by decide +kernel)

theorem ReferenceFault.message_ne (f : ReferenceFault) : f.message ≠ "unexpected closing tag" := by
  have hnumber : BeginsOtherwise "invalid character reference: `" := by
    decide +kernel
  have hunterminated : BeginsOtherwise "Error while escaping character at range " := by
    decide +kernel
  have hunknown : BeginsOtherwise "at " := by
    decide +kernel
  cases f with
  | unterminated start stop => exact ((hunterminated.append _).append _).ne
  | unknown start stop name => exact ((((hunknown.append _).append _).append _).append _).ne
  | noCharacter n => exact ((hnumber.append _).append _).ne
  | signedNumber | emptyNumber | badDigit | tooLarge | zero => decide +kernel

theorem AttributeFault.message_ne (f : AttributeFault) : f.message ≠ "unexpected closing tag" := by
  have hposition : BeginsOtherwise "position " := by
    decide +kernel
  cases f with
  | missingEquals p | missingValue p | unquotedValue p =>
      exact ((hposition.append _).append _).ne
  | duplicated p q => exact (((hposition.append _).append _).append _).ne
  | unclosedQuote p quote => exact ((((hposition.append _).append _).append _).append _).ne

/-- No other cause has the wording of a missing element. -/
theorem Cause.message_ne {cause : Cause} (h : cause ≠ .unexpectedEnd) :
    cause.message ≠ "unexpected closing tag" := by
  have hunmatched : BeginsOtherwise "ill-formed document: close tag `</" := by
    decide +kernel
  have hmismatched : BeginsOtherwise "ill-formed document: expected `</" := by
    decide +kernel
  have hbinding : BeginsOtherwise "The namespace prefix " := by
    decide +kernel
  have hdeep : BeginsOtherwise "nesting too deep (limit " := by
    decide +kernel
  have hsecond : BeginsOtherwise "second root element '" := by
    decide +kernel
  cases cause with
  | unexpectedEnd => exact absurd rfl h
  | badAttribute f => exact f.message_ne
  | badReference f => exact f.message_ne
  | unmatchedEnd name => exact ((hunmatched.append _).append _).ne
  | mismatchedEnd expected found =>
      exact ((((hmismatched.append _).append _).append _).append _).ne
  | reservedBinding pre uri => exact (((hbinding.append _).append _).append _).ne
  | tooDeep limit => exact ((hdeep.append _).append _).ne
  | secondRoot name => exact ((hsecond.append _).append _).ne
  | unknownMarkup | unclosedInstruction | unclosedComment | unclosedDoctype | unclosedCdata
  | unclosedTag | namelessDoctype | textOutsideRoot | cdataOutsideRoot => decide +kernel

/-! ## Every moment of a reading -/

/-- At every moment at which a text is read, in front of a further token or of its end, the elements
that wait to be completed are those of the tags that are open: as many, and in the same order called
by the local parts of their names. So whatever the reader lets through, the builder does not miss an
element to close; and no text is refused with the words for that. -/
theorem open_elements_mirror_tags (s : String) :
    (∀ n a rest, Stand.initial.Reaches (withoutMark s.toList) n a rest →
      parse s = a.read n rest ∧
      a.growth.stack.length = a.reader.opened.length ∧
      (∀ (i : Nat) (f : Frame) (t : OpenTag), a.growth.stack[i]? = some f →
        a.reader.opened[i]? = some t → f.name = t.localName) ∧
      ∀ t e r, a.reader.step t = .ok (e, r) → a.growth.step e ≠ .error .unexpectedEnd) ∧
    ∀ position cause, parse s = .error (.markup position cause) →
      cause ≠ .unexpectedEnd ∧ cause.message ≠ "unexpected closing tag" := by
  refine ⟨fun n a rest h => ?_, fun position cause h => ?_⟩
  · obtain ⟨tags, ha⟩ := h.exists_hasOpen Stand.hasOpen_initial
    have hread := h.read_eq 0
    rw [Nat.zero_add] at hread
    refine ⟨hread, ha.length_eq, fun i f t => ha.name_eq, fun t e r hr hg => ?_⟩
    exact ha.not_refuses t (.inr ⟨e, r, hr, hg⟩)
  · rw [parse_eq_read] at h
    obtain ⟨n, -, hrefused⟩ := Stand.exists_refusedAt h
    have hcause := hrefused.cause_ne Stand.hasOpen_initial
    exact ⟨hcause, Cause.message_ne hcause⟩

deriving instance DecidableEq for Frame
deriving instance DecidableEq for Growth

/-- A text whose last end tag comes too early. -/
def crossedText : String :=
  "<p:a x='1'><b/>t<c></p:a>"

/-- Where its reading stands before that end tag. -/
def crossedStand : Stand where
  reader := ⟨Scope.outermost, [⟨"c".toList, Scope.outermost⟩, ⟨"p:a".toList, Scope.outermost⟩]⟩
  growth := ⟨[⟨none, "c", [], []⟩, ⟨none, "a", [⟨none, "x", "1"⟩], [⟨none, "b", [], []⟩]⟩], none⟩

theorem reaches_crossed :
    Stand.initial.Reaches (withoutMark crossedText.toList) 19 crossedStand "</p:a>".toList := by
  let r : Reader := ⟨Scope.outermost, [⟨"p:a".toList, Scope.outermost⟩]⟩
  let g : List Element → Growth := fun es => ⟨[⟨none, "a", [⟨none, "x", "1"⟩], es⟩], none⟩
  have hp : Stand.initial.Takes (.opening "p:a x='1'".toList) ⟨r, g []⟩ :=
    ⟨.start none "p:a x='1'".toList, by decide +kernel, by decide +kernel⟩
  have hb : Stand.Takes ⟨r, g []⟩ (.empty "b".toList) ⟨r, g [⟨none, "b", [], []⟩]⟩ :=
    ⟨.empty none "b".toList, by decide +kernel, by decide +kernel⟩
  have ht : Stand.Takes ⟨r, g [⟨none, "b", [], []⟩]⟩ (.text "t".toList)
      ⟨r, g [⟨none, "b", [], []⟩]⟩ := ⟨_, rfl, rfl⟩
  have hc : Stand.Takes ⟨r, g [⟨none, "b", [], []⟩]⟩ (.opening "c".toList) crossedStand :=
    ⟨.start none "c".toList, by decide +kernel, by decide +kernel⟩
  have hreaches : Stand.initial.Reaches (withoutMark crossedText.toList) (11 + (4 + (1 + (3 + 0))))
      crossedStand "</p:a>".toList :=
    .later rfl hp (.later rfl hb (.later rfl ht (.later rfl hc .here)))
  exact hreaches

theorem open_elements_mirror_tags_crossed :
    Stand.initial.Reaches (withoutMark crossedText.toList) 19 crossedStand "</p:a>".toList ∧
      crossedStand.growth.stack.length = crossedStand.reader.opened.length ∧
      parse crossedText = .error (.markup 25 (.mismatchedEnd "c" "p:a")) ∧
      (Cause.mismatchedEnd "c" "p:a").message ≠ "unexpected closing tag" := by
  obtain ⟨hmoments, hfaults⟩ := open_elements_mirror_tags crossedText
  have hparse : parse crossedText = .error (.markup 25 (.mismatchedEnd "c" "p:a")) := by
    decide +kernel
  exact ⟨reaches_crossed, (hmoments _ _ _ reaches_crossed).2.1, hparse, (hfaults _ _ hparse).2⟩

end ActionSheet.Markup
