import ActionSheet.Proofs.Markup.Document
import ActionSheet.Proofs.Markup.Preorder
import ActionSheet.Proofs.Markup.Recognition

/-!
# How deep a tree is

A tree is as deep as the most elements that are ever open at once, counting one that opens and closes
in a single tag. The builder counts otherwise: only a start tag is held against the limit, since only
its element has to wait on the stack. So the stack never holds more than `maxDepth` frames, and this
invariant of a run leaves one more level to the tree, which nothing but tags that close themselves can
reach.

That level is reached. `nested` is a document for every depth up to it, so a tree may be one level
deeper than the limit says.

What a run knows is how many tags are open when an element opens, and what a tree knows is the length
of an address. `opensIn` brings the two together: the elements of a tree in document order are the
openings among the events that it was read from, one for one.
-/

namespace ActionSheet.Markup

/-! ## Elements as they open -/

/-- An element as it opens: its depth, where the root has depth one, what its tag says, and whether
the tag is its end too. -/
structure Opening where
  depth : Nat
  label : Label
  closesItself : Bool

/-- The depth that the limit leaves to an element: a start tag is held against it, a tag that closes
itself is not. -/
def Opening.bound (o : Opening) : Nat :=
  if o.closesItself then maxDepth + 1 else maxDepth

/-- What opens with an event, where some tags are open already. -/
def Event.opening? (tags : List Tag) : Event → Option Opening
  | .start uri tag => some ⟨tags.length + 1, .ofTag uri tag, false⟩
  | .empty uri tag => some ⟨tags.length + 1, .ofTag uri tag, true⟩
  | _ => none

/-- What opens with some events, in their order. -/
def openings (tags : List Tag) : List Event → List Opening
  | [] => []
  | e :: events => (e.opening? tags).toList ++ openings (e.tagsAfter tags) events

theorem openings_append (tags : List Tag) (es fs : List Event) :
    openings tags (es ++ fs) = openings tags es ++ openings (es.foldl Event.tagsAfter tags) fs := by
  induction es generalizing tags with
  | nil => rfl
  | cons e es ih => rw [List.cons_append, openings, openings, ih, List.foldl_cons, List.append_assoc]

theorem exists_opening_of_mem {tags : List Tag} {events : List Event} {o : Opening}
    (h : o ∈ openings tags events) :
    ∃ pre e post, events = pre ++ e :: post ∧
      e.opening? (pre.foldl Event.tagsAfter tags) = some o := by
  induction events generalizing tags with
  | nil => cases h
  | cons e events ih =>
      rw [openings] at h
      rcases List.mem_append.1 h with h | h
      · exact ⟨[], e, events, rfl, Option.mem_toList.1 h⟩
      · obtain ⟨pre, e', post, rfl, ho⟩ := ih h
        exact ⟨e :: pre, e', post, rfl, ho⟩

/-! ## The limit along a run -/

namespace Growth

theorem length_stack_attach {g g' : Growth} {e : Element} (h : g.attach e = .ok g') :
    g'.stack.length = g.stack.length := by
  have := congrArg List.length (names_attach h)
  rwa [List.length_map, List.length_map] at this

theorem Grows.length_stack_le {g g' : Growth} {e : Event} (h : Grows g e g')
    (hg : g.stack.length ≤ maxDepth) : g'.stack.length ≤ maxDepth := by
  cases h with
  | start hd _ => exact hd
  | empty _ ha => exact (length_stack_attach ha).trans_le hg
  | @finish f rest _ hs ha =>
      rw [length_stack_attach ha]
      rw [hs, List.length_cons] at hg
      exact Nat.le_of_succ_le hg
  | ignored _ _ => exact hg

/-- No run has more than `maxDepth` elements open at once. -/
theorem length_stack_le_of_run {events : List Event} {g : Growth} (h : initial.run events = .ok g) :
    g.stack.length ≤ maxDepth :=
  run_induction (P := fun _ g => g.stack.length ≤ maxDepth) (Nat.zero_le _)
    (fun _ _ _ _ hpre hs => (step_eq_ok.1 hs).length_stack_le hpre) h

/-- An element opens within its bound. -/
theorem Grows.depth_le_bound {g g' : Growth} {e : Event} {tags : List Tag} {o : Opening}
    (h : Grows g e g') (hg : g.stack.length ≤ maxDepth) (htags : g.stack.length = tags.length)
    (ho : e.opening? tags = some o) : o.depth ≤ o.bound := by
  cases h with
  | start hd _ =>
      cases ho
      exact htags ▸ hd
  | empty _ _ =>
      cases ho
      exact Nat.succ_le_succ (htags ▸ hg)
  | finish _ _ => cases ho
  | ignored hm _ =>
      cases e with
      | start | empty => cases hm
      | finish | text | cdata | skipped => cases ho

/-- Of an accepted text every element opens within its bound. -/
theorem depth_le_of_run {events : List Event} {g : Growth} (h : initial.run events = .ok g) :
    ∀ o ∈ openings [] events, o.depth ≤ o.bound := by
  intro o ho
  obtain ⟨pre, e, post, rfl, hopen⟩ := exists_opening_of_mem ho
  obtain ⟨g₁, g₂, hpre, hgrows⟩ := grows_of_run h
  exact hgrows.depth_le_bound (length_stack_le_of_run hpre) (length_stack_of_run hpre) hopen

end Growth

/-! ## The openings of a tree -/

namespace Element

/-- An element of a tree is the one that an opening began, with so many elements open around the
tree. -/
structure StandsAs (e : Element) (around : Nat) (address : List Nat) (o : Opening) : Prop where
  depth : o.depth = around + address.length + 1
  element : ∃ x, e.at? address = some x ∧ x.label = o.label ∧
    (o.closesItself = true → x.children = [])

theorem StandsAs.below {e c : Element} {around i : Nat} {address : List Nat} {o : Opening}
    (hc : e.children[i]? = some c) (h : c.StandsAs (around + 1) address o) :
    e.StandsAs around (i :: address) o := by
  obtain ⟨hdepth, x, hx, hrest⟩ := h
  refine ⟨?_, x, ?_, hrest⟩
  · rw [hdepth, List.length_cons]
    omega
  · rw [at?, hc, Option.bind_some, hx]

/-- Some events are all of an element: they leave the open tags as they were, and what opens with them
are the elements of its tree. -/
structure OpensIn (e : Element) (events : List Event) : Prop where
  balanced : ∀ tags, events.foldl Event.tagsAfter tags = tags
  openings : ∀ tags : List Tag,
    List.Forall₂ (e.StandsAs tags.length) (addresses e) (openings tags events)

/-- Some events are the last children of an element. -/
structure OpenIn (es : List Element) (events : List Event) : Prop where
  balanced : ∀ tags, events.foldl Event.tagsAfter tags = tags
  openings : ∀ (tags : List Tag) (around : Nat) (e : Element) (i : Nat), tags.length = around + 1 →
    e.children.drop i = es →
      List.Forall₂ (e.StandsAs around) (addressesAll i es) (openings tags events)

/-- Events without marks change nothing and open nothing. -/
theorem silent_append {quiet : List Event} (h : ∀ x ∈ quiet, x.marks = []) (tags : List Tag) :
    quiet.foldl Event.tagsAfter tags = tags ∧
      ∀ events, Markup.openings tags (quiet ++ events) = Markup.openings tags events := by
  induction quiet with
  | nil => exact ⟨rfl, fun _ => rfl⟩
  | cons x quiet ih =>
      have hx : x.tagsAfter tags = tags ∧ x.opening? tags = none := by
        have hm := h x List.mem_cons_self
        cases x with
        | start | empty | finish => cases hm
        | text | cdata | skipped => exact ⟨rfl, rfl⟩
      obtain ⟨hfold, hopen⟩ := ih fun y hy => h y (List.mem_cons_of_mem _ hy)
      refine ⟨?_, fun events => ?_⟩
      · rw [List.foldl_cons, hx.1, hfold]
      · rw [List.cons_append, Markup.openings, hx.1, hx.2, hopen]
        rfl

theorem OpensIn.after {e : Element} {quiet events : List Event} (h : e.OpensIn events)
    (hquiet : ∀ x ∈ quiet, x.marks = []) : e.OpensIn (quiet ++ events) := by
  refine ⟨fun tags => ?_, fun tags => ?_⟩
  · rw [List.foldl_append, (silent_append hquiet tags).1, h.balanced]
  · rw [(silent_append hquiet tags).2]
    exact h.openings tags

theorem OpenIn.cons {e : Element} {es : List Element} {events more : List Event}
    (hs : OpenIn es more) (h : e.OpensIn events) : OpenIn (e :: es) (events ++ more) := by
  refine ⟨fun tags => ?_, fun tags around parent i hlen hdrop => ?_⟩
  · rw [List.foldl_append, h.balanced, hs.balanced]
  · obtain ⟨hchild, hrest⟩ := child_of_drop hdrop
    rw [addressesAll, openings_append, h.balanced]
    refine List.rel_append ?_ (hs.openings tags around parent (i + 1) hlen hrest)
    rw [List.forall₂_map_left_iff]
    have hfirst := h.openings tags
    rw [hlen] at hfirst
    exact hfirst.imp fun _ _ ho => ho.below hchild

theorem openIn_quiet {quiet : List Event} (h : ∀ x ∈ quiet, x.marks = []) : OpenIn [] quiet := by
  refine ⟨fun tags => (silent_append h tags).1, fun tags around e i _ _ => ?_⟩
  have hnone := (silent_append h tags).2 []
  rw [List.append_nil] at hnone
  rw [addressesAll, hnone]
  exact .nil

theorem opensIn_empty {uri : Option String} {tag : Tag} {e : Element}
    (hlabel : e.label = .ofTag uri tag) (hnone : e.children = []) : e.OpensIn [.empty uri tag] := by
  have haddresses : addresses e = [[]] := by
    obtain ⟨uri, name, attributes, es⟩ := e
    cases hnone
    rw [addresses, addressesAll]
  refine ⟨fun _ => rfl, fun tags => ?_⟩
  rw [haddresses]
  exact .cons ⟨rfl, e, rfl, hlabel, fun _ => hnone⟩ .nil

theorem opensIn_start {uri : Option String} {tag : Tag} {e : Element} {inner : List Event}
    (hlabel : e.label = .ofTag uri tag) (hinner : OpenIn e.children inner) :
    e.OpensIn (.start uri tag :: (inner ++ [.finish])) := by
  have haddresses : addresses e = [] :: addressesAll 0 e.children := by
    cases e
    rw [addresses]
  refine ⟨fun tags => ?_, fun tags => ?_⟩
  · rw [List.foldl_cons, List.foldl_append, hinner.balanced]
    rfl
  · have hbelow := hinner.openings (tag :: tags) tags.length e 0 rfl rfl
    have hlast : Markup.openings (tag :: tags) (inner ++ [.finish]) =
        Markup.openings (tag :: tags) inner := by
      rw [openings_append]
      exact List.append_nil _
    rw [haddresses]
    refine .cons ⟨rfl, e, rfl, hlabel, nofun⟩ ?_
    rw [← hlast] at hbelow
    exact hbelow

theorem exists_event_of_marks {m : Mark Label} {ms : List (Mark Label)} {events : List Event}
    (h : m :: ms = marksOf events) :
    ∃ quiet e post, events = quiet ++ e :: post ∧ (∀ x ∈ quiet, x.marks = []) ∧
      e.marks ≠ [] ∧ m :: ms = e.marks ++ marksOf post := by
  induction events with
  | nil => cases h
  | cons x events ih =>
      have hsplit : marksOf (x :: events) = x.marks ++ marksOf events := List.flatMap_cons
      rw [hsplit] at h
      by_cases hx : x.marks = []
      · rw [hx] at h
        obtain ⟨quiet, e, post, rfl, hquiet, hrest⟩ := ih h
        refine ⟨x :: quiet, e, post, rfl, fun y hy => ?_, hrest⟩
        rcases List.mem_cons.1 hy with rfl | hy
        · exact hx
        · exact hquiet y hy
      · exact ⟨[], x, events, rfl, nofun, hx, h⟩

/-- A tag that closes itself leaves no room for children. -/
theorem eq_nil_of_walkAll {es : List Element} {ms ns : List (Mark Label)}
    (h : walkAll es ++ ms = .closed :: ns) : es = [] := by
  match es with
  | [] => rfl
  | ⟨uri, name, attributes, children⟩ :: es =>
      rw [walkAll, walk] at h
      cases h

mutual

/-- The marks of a tree at the front of some events are those of events that are all of the tree. -/
theorem exists_opensIn : ∀ (e : Element) {events : List Event} {rest : List (Mark Label)},
    e.walk ++ rest = marksOf events →
    ∃ front post, events = front ++ post ∧ rest = marksOf post ∧ e.OpensIn front
  | ⟨uri, name, attributes, es⟩, events, rest, h => by
      -- Events without a mark may come first. The next one opens the element, and whether it closes
      -- it as well is the case split.
      rw [walk, List.cons_append, List.append_assoc] at h
      obtain ⟨quiet, first, post, rfl, hquiet, hmarks, h⟩ := exists_event_of_marks h
      cases first with
      | start uri' tag =>
          obtain ⟨hlabel, h⟩ := List.cons.inj h
          obtain ⟨inner, post, rfl, hrest, hes⟩ := exists_openIn es h
          refine ⟨quiet ++ .start uri' tag :: (inner ++ [.finish]), post, ?_, hrest, ?_⟩
          · rw [List.append_assoc, List.cons_append, List.append_assoc]
            rfl
          · have hnode := opensIn_start (e := ⟨uri, name, attributes, es⟩) (Mark.opened.inj hlabel) hes
            exact hnode.after hquiet
      | empty uri' tag =>
          obtain ⟨hlabel, h⟩ := List.cons.inj h
          cases eq_nil_of_walkAll h
          refine ⟨quiet ++ [.empty uri' tag], post, ?_, (List.cons.inj h).2, ?_⟩
          · rw [List.append_assoc]
            rfl
          · have hnode := opensIn_empty (e := ⟨uri, name, attributes, []⟩) (Mark.opened.inj hlabel) rfl
            exact hnode.after hquiet
      | finish => cases h
      | text | cdata | skipped => exact absurd rfl hmarks

theorem exists_openIn : ∀ (es : List Element) {events : List Event} {rest : List (Mark Label)},
    walkAll es ++ ([.closed] ++ rest) = marksOf events →
    ∃ front post, events = front ++ .finish :: post ∧ rest = marksOf post ∧ OpenIn es front
  | [], events, rest, h => by
      obtain ⟨quiet, last, post, rfl, hquiet, hmarks, h⟩ := exists_event_of_marks h
      cases last with
      | finish => exact ⟨quiet, post, rfl, (List.cons.inj h).2, openIn_quiet hquiet⟩
      | start | empty => cases h
      | text | cdata | skipped => exact absurd rfl hmarks
  | e :: es, events, rest, h => by
      rw [walkAll, List.append_assoc] at h
      obtain ⟨first, post, rfl, h, hfirst⟩ := exists_opensIn e h
      obtain ⟨others, post, rfl, h, hothers⟩ := exists_openIn es h
      exact ⟨first ++ others, post, (List.append_assoc ..).symm, h, hothers.cons hfirst⟩

end

end Element

/-- The elements of a document open in document order, each at the depth of its address and within
its bound. -/
theorem exists_openings {s : String} {e : Element} (h : parse s = .ok e) :
    ∃ events, (Event.trail (withoutMark s.toList)).items? = some events ∧
      List.Forall₂ (e.StandsAs 0) (Element.addresses e) (openings [] events) ∧
      ∀ o ∈ openings [] events, o.depth ≤ o.bound := by
  obtain ⟨events, hevents⟩ := items?_of_grow h
  have hrun := exists_run_of_parse hevents h
  refine ⟨events, hevents, ?_, Growth.depth_le_of_run hrun⟩
  have hwalk : e.walk ++ [] = marksOf events := Growth.walk_of_run hrun
  obtain ⟨front, post, rfl, hpost, hopens⟩ := Element.exists_opensIn e hwalk
  have hquiet : ∀ x ∈ post, x.marks = [] := List.flatMap_eq_nil_iff.1 hpost.symm
  have hnone := (Element.silent_append hquiet []).2 []
  rw [List.append_nil] at hnone
  rw [openings_append, hopens.balanced, hnone, openings, List.append_nil]
  exact hopens.openings []

theorem exists_of_mem_of_forall₂ {α β : Type} {R : α → β → Prop} {as : List α} {bs : List β}
    (h : List.Forall₂ R as bs) {a : α} (ha : a ∈ as) : ∃ b ∈ bs, R a b := by
  induction h with
  | nil => cases ha
  | cons hr _ ih =>
      rcases List.mem_cons.1 ha with rfl | ha
      · exact ⟨_, List.mem_cons_self, hr⟩
      · obtain ⟨b, hb, hab⟩ := ih ha
        exact ⟨b, List.mem_cons_of_mem _ hb, hab⟩

/-- Where the elements of a document stand: each opens at the depth of its address, with a start tag
at most at `maxDepth` and with a tag that closes itself at most one level deeper. So no address is
longer than `maxDepth`, and what stands at one of that length has no children. -/
theorem depth_le {s : String} {e : Element} (h : parse s = .ok e) :
    (∃ events, (Event.trail (withoutMark s.toList)).items? = some events ∧
      List.Forall₂ (e.StandsAs 0) (Element.addresses e) (openings [] events) ∧
      ∀ o ∈ openings [] events, o.depth ≤ o.bound) ∧
    ∀ address x, e.at? address = some x →
      address.length ≤ maxDepth ∧ (address.length = maxDepth → x.children = []) := by
  obtain ⟨events, hevents, hstands, hbound⟩ := exists_openings h
  refine ⟨⟨events, hevents, hstands, hbound⟩, fun address x hx => ?_⟩
  obtain ⟨o, ho, hdepth, y, hy, -, hchildren⟩ :=
    exists_of_mem_of_forall₂ hstands (Element.mem_addresses_of_at? hx)
  rw [hx] at hy
  cases hy
  have hle := hbound o ho
  rw [hdepth, Opening.bound] at hle
  cases hself : o.closesItself with
  | false =>
      rw [hself, if_neg Bool.false_ne_true] at hle
      exact ⟨by omega, fun hlen => by omega⟩
  | true =>
      rw [hself, if_pos rfl] at hle
      exact ⟨by omega, fun _ => hchildren hself⟩

/-! ## Documents as deep as can be -/

/-- Elements inside one another, the innermost closed in its own tag. -/
def nested : Nat → List Char
  | 0 => "<b/>".toList
  | n + 1 => "<a>".toList ++ nested n ++ "</a>".toList

/-- The tree of such a document. -/
def nestedElement : Nat → Element
  | 0 => ⟨none, "b", [], []⟩
  | n + 1 => ⟨none, "a", [], [nestedElement n]⟩

theorem at?_nestedElement (n : Nat) :
    (nestedElement n).at? (List.replicate n 0) = some (nestedElement 0) := by
  induction n with
  | zero => rfl
  | succ n ih => exact ih

/-- A tag that is one letter and nothing else. -/
theorem writesTag_letter {c : Char} (hc : isNameChar c = true) : WritesTag ⟨none, [c]⟩ [] [] :=
  ⟨⟨⟨List.cons_ne_nil _ _, by rw [List.all_cons, hc]; rfl⟩, nofun⟩, Draft.entries_nil, nofun,
    List.nodup_nil⟩

/-- Where names without a prefix have no namespace, such a tag declares and says nothing. -/
theorem enter_letter {c : Char} (hc : isNameChar c = true) {scope : Scope}
    (hr : scope.resolve none = none) :
    scope.enter [c] = .ok scope ∧
      Growth.openFrame (Reader.namespaceOf scope [c]) [c] =
        .ok ⟨none, String.ofList [c], [], []⟩ := by
  have htag := writesTag_letter hc
  obtain ⟨inner, henter, hsame⟩ := htag.exists_enter scope
  have huri : Reader.namespaceOf scope [c] = none := by
    rw [Reader.namespaceOf, show Name.ofChars (tagName [c]) = ⟨none, [c]⟩ from htag.ofChars_tagName,
      hr]
    rfl
  rw [hsame (List.forall_mem_nil _)] at henter
  rw [huri]
  exact ⟨henter, htag.openFrame_eq none⟩

theorem passes_nested (n : Nat) {r : Reader} : r.scope.resolve none = none →
    ∀ g g' : Growth, g.stack.length + n ≤ maxDepth → g.attach (nestedElement n) = .ok g' →
      Stand.Passes ⟨r, g⟩ (nested n) ⟨r, g'⟩ := by
  -- Reader and growth are left open, since what is inside is read with one more element open.
  induction n generalizing r with
  | zero =>
      intro hr g g' _ ha
      obtain ⟨henter, hf⟩ := enter_letter (c := 'b') rfl hr
      exact Stand.passes_of_reads (Token.reads_empty (writesTag_letter (c := 'b') rfl).tagText)
        (Stand.takes_empty henter hf ha)
  | succ n ih =>
      intro hr g g' hd ha
      have htag := writesTag_letter (c := 'a') rfl
      obtain ⟨henter, hf⟩ := enter_letter (c := 'a') rfl hr
      have hopen := Stand.passes_of_reads (Token.reads_opening htag.tagText htag.getLast?_ne)
        (Stand.takes_opening henter hf (show g.stack.length < maxDepth by omega))
      have hclose := Stand.passes_of_reads (reads_closing_chars htag.name)
        (Stand.takes_closing (f := ⟨none, "a", [], [nestedElement n]⟩) ha r r.scope ['a'])
      have hinner := ih (r := r.inside r.scope ['a']) hr ⟨⟨none, "a", [], []⟩ :: g.stack, g.root⟩ _
        (by rw [List.length_cons]; omega) rfl
      exact (hopen.append hinner).append hclose

/-- Elements can stand inside one another as deep as the limit allows, and one more level is open to
the innermost. -/
theorem parse_nested {n : Nat} (h : n ≤ maxDepth) :
    parse (String.ofList (nested n)) = .ok (nestedElement n) := by
  have hmark : withoutMark (nested n) = nested n := by
    refine withoutMark_eq ?_
    cases n with
    | zero => decide
    | succ n => exact fun hc => absurd (Option.some.inj hc) (by decide)
  have hend := passes_nested n (r := Reader.initial) (by decide) Growth.initial
    ⟨[], some (nestedElement n)⟩ ((Nat.zero_add n).trans_le h) rfl 0 []
  rw [List.append_nil] at hend
  rw [parse, String.toList_ofList, hmark]
  exact hend.trans (Stand.read_of_done rfl _)

/-- The bound is reached, by a tag that closes itself. -/
theorem depth_le_nested :
    parse (String.ofList (nested maxDepth)) = .ok (nestedElement maxDepth) ∧
      (nestedElement maxDepth).at? (List.replicate maxDepth 0) = some (nestedElement 0) ∧
      (nestedElement 0).children = [] ∧
      ∃ events, (Event.trail (withoutMark (String.ofList (nested maxDepth)).toList)).items? =
          some events ∧
        ∃ o ∈ openings [] events, o.depth = maxDepth + 1 ∧ o.closesItself = true := by
  have h := parse_nested (Nat.le_refl maxDepth)
  have hat := at?_nestedElement maxDepth
  obtain ⟨⟨events, hevents, hstands, hbound⟩, hchildren⟩ := depth_le h
  obtain ⟨o, ho, hdepth, -⟩ := exists_of_mem_of_forall₂ hstands (Element.mem_addresses_of_at? hat)
  rw [List.length_replicate, Nat.zero_add] at hdepth
  have hself : o.closesItself = true := by
    have hle := hbound o ho
    rw [hdepth, Opening.bound] at hle
    by_contra hopen
    rw [if_neg hopen] at hle
    exact Nat.not_succ_le_self maxDepth hle
  exact ⟨h, hat, (hchildren _ _ hat).2 List.length_replicate, events, hevents, o, ho, hdepth, hself⟩

/-- So it is not the case that no element is deeper than `maxDepth`. -/
theorem depth_gt_maxDepth_nested :
    ¬∀ (s : String) (e : Element), parse s = .ok e →
      ∀ address x, e.at? address = some x → address.length + 1 ≤ maxDepth := by
  intro hall
  have hle := hall _ _ (parse_nested (Nat.le_refl maxDepth)) _ _ (at?_nestedElement maxDepth)
  rw [List.length_replicate] at hle
  exact Nat.not_succ_le_self maxDepth hle

end ActionSheet.Markup
