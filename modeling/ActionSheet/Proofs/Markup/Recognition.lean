import ActionSheet.Proofs.Markup.Run

/-!
# Which texts have a tree

The reader turns a text into events and the builder turns events into a tree. When the reader and
the attributes are in order, the builder decides alone, and this file says what it decides: a tree
comes out exactly when the tags are one complete element, none of them opens too deep, and nothing
but blanks stands outside. The tree then has the marks of the text, and otherwise the fault at the
end of the text names what is missing.

The builder notices a second root only when that has closed. The count of `Walk.lean` bridges the
gap: the root alone is already a complete element, so in a text of one element nothing that has
marks can follow it.
-/

namespace ActionSheet.Markup

/-- Whether every attribute of the tag of an event can be read. -/
def Event.hasAttributes : Event → Bool
  | .start _ tag | .empty _ tag => (readAttributes tag).isOk
  | _ => true

namespace Growth

theorem openFrame_of_read {uri : Option String} {tag : List Char}
    (h : (readAttributes tag).isOk = true) : ∃ f, openFrame uri tag = .ok f := by
  rw [openFrame]
  cases ha : readAttributes tag with
  | error cause =>
      rw [ha] at h
      cases h
  | ok attributes => exact ⟨⟨uri, localName tag, attributes, []⟩, rfl⟩

theorem attach_of_root_eq_none {g : Growth} (e : Element) (h : g.stack = [] → g.root = none) :
    ∃ g', g.attach e = .ok g' := by
  obtain ⟨stack, root⟩ := g
  cases stack with
  | cons f rest => exact ⟨_, rfl⟩
  | nil =>
      cases h rfl
      exact ⟨_, rfl⟩

theorem level_flatMap_walk (stack : List Frame) :
    Mark.level (stack.flatMap Frame.walk) = stack.length := by
  induction stack with
  | nil => rfl
  | cons f rest ih =>
      rw [List.flatMap_cons, Mark.level_append, ih, Frame.walk, Mark.level_opened,
        (Element.nested_walkAll _).level_eq_zero, List.length_cons]
      omega

/-- What has grown is as deep as its stack; a root that has closed adds nothing. -/
theorem level_walk (g : Growth) : Mark.level g.walk = g.stack.length := by
  rw [walk, Mark.level_append, level_flatMap_walk, List.length_reverse]
  cases g.root with
  | none => exact Int.zero_add _
  | some e =>
      rw [Option.elim_some, (Element.oneElement_walk e).nested.level_eq_zero]
      exact Int.zero_add _

/-- Inside one complete element there is no root yet: whatever follows a root is a second one. -/
theorem root_eq_none_of_prefix {g : Growth} {ms all : List (Mark Label)}
    (hall : Mark.OneElement all) (hp : g.walk ++ ms <+: all) (hms : ms ≠ []) : g.root = none := by
  cases hr : g.root with
  | none => rfl
  | some e =>
      have hfront : e.walk <+: g.walk := by
        rw [walk, hr]
        exact List.prefix_append _ _
      have heq : e.walk = all :=
        (Element.oneElement_walk e).eq_of_isPrefix hall
          ((hfront.trans (List.prefix_append _ _)).trans hp)
      have hlen := hp.length_le
      have hle := hfront.length_le
      have hpos := List.length_pos_iff.2 hms
      rw [List.length_append, ← heq] at hlen
      omega

/-- An event that goes on with one complete element is accepted. -/
theorem exists_step {g : Growth} {e : Event} {all : List (Mark Label)}
    (hall : Mark.OneElement all) (hp : g.walk ++ e.marks <+: all) (ha : e.hasAttributes = true)
    (hd : ∀ uri tag, e = .start uri tag → g.stack.length < maxDepth)
    (ho : g.stack = [] → e.MayStandOutside) : ∃ g', g.step e = .ok g' := by
  cases e with
  | start uri tag =>
      obtain ⟨f, hf⟩ : ∃ f, openFrame uri tag = .ok f := openFrame_of_read ha
      exact ⟨_, step_eq_ok.2 (.start (hd uri tag rfl) hf)⟩
  | empty uri tag =>
      obtain ⟨f, hf⟩ : ∃ f, openFrame uri tag = .ok f := openFrame_of_read ha
      have hr := root_eq_none_of_prefix hall hp (List.cons_ne_nil _ _)
      obtain ⟨g', hg⟩ := attach_of_root_eq_none f.element fun _ => hr
      exact ⟨g', step_eq_ok.2 (.empty hf hg)⟩
  | finish =>
      have hr := root_eq_none_of_prefix hall hp (List.cons_ne_nil _ _)
      cases hs : g.stack with
      | nil =>
          -- The mark that closes would bring the count below zero.
          have hl := hall.nested.level_nonneg hp
          rw [Mark.level_append, level_walk, hs] at hl
          exact absurd hl (by decide)
      | cons f rest =>
          obtain ⟨g', hg⟩ := attach_of_root_eq_none (g := ⟨rest, g.root⟩) f.element fun _ => hr
          exact ⟨g', step_eq_ok.2 (.finish hs hg)⟩
  | text | cdata | skipped => exact ⟨g, step_eq_ok.2 (.ignored rfl ho)⟩

/-- Events that are one complete element, within the depth and with nothing but blanks outside,
are all accepted. -/
theorem exists_run {events : List Event} (hall : Mark.OneElement (marksOf events))
    (ha : ∀ e ∈ events, e.hasAttributes = true)
    (hd : ∀ pre uri tag post, events = pre ++ .start uri tag :: post →
      (openTags pre).length < maxDepth)
    (ho : ∀ pre e post, events = pre ++ e :: post → openTags pre = [] → e.MayStandOutside)
    {pre : List Event} (hp : pre <+: events) : ∃ g, initial.run pre = .ok g := by
  induction pre using List.reverseRecOn with
  | nil => exact ⟨initial, rfl⟩
  | append_singleton pre e ih =>
      obtain ⟨post, hpost⟩ := hp
      have hsplit : events = pre ++ e :: post := by rw [← hpost, List.append_assoc]; rfl
      obtain ⟨g, hg⟩ := ih ⟨e :: post, hsplit.symm⟩
      have hlen := length_stack_of_run hg
      have hmarks : g.walk ++ e.marks <+: marksOf events := by
        rw [walk_of_run hg, ← marksOf_singleton, ← marksOf_append, ← hpost,
          marksOf_append (pre ++ [e])]
        exact List.prefix_append _ _
      obtain ⟨g', hs⟩ := exists_step hall hmarks (ha e (by rw [hsplit]; simp))
        (by rintro uri tag rfl; rw [hlen]; exact hd pre uri tag post hsplit)
        (by
          intro hnil
          rw [hnil] at hlen
          exact ho pre e post hsplit (List.length_eq_zero_iff.1 hlen.symm))
      exact ⟨g', run_concat_eq_ok.2 ⟨g, hg, hs⟩⟩

theorem exists_finish {g : Growth} (h : Mark.OneElement g.walk) : ∃ e, g.finish = .ok e := by
  obtain ⟨stack, root⟩ := g
  have hl := level_walk ⟨stack, root⟩
  rw [h.nested.level_eq_zero] at hl
  cases stack with
  | cons f rest =>
      rw [List.length_cons] at hl
      omega
  | nil =>
      cases root with
      | none => exact absurd rfl h.ne_nil
      | some e => exact ⟨e, rfl⟩

theorem finish_of_open {g : Growth} {name : String} {names : List String}
    (h : g.stack.map (·.name) = name :: names) : g.finish = .error (.unclosedElement name) := by
  obtain ⟨stack, root⟩ := g
  cases stack with
  | nil => cases h
  | cons f rest =>
      cases h
      rfl

theorem finish_of_walk_eq_nil {g : Growth} (h : g.walk = []) : g.finish = .error .missingRoot := by
  obtain ⟨stack, root⟩ := g
  cases stack with
  | cons f rest =>
      rw [walk_cons] at h
      exact absurd (List.append_eq_nil_iff.1 h).2 (List.cons_ne_nil _ _)
  | nil =>
      cases root with
      | none => rfl
      | some e => exact absurd (List.append_eq_nil_iff.1 h).1 (Element.oneElement_walk e).ne_nil

theorem grows_of_run {pre post : List Event} {e : Event} {g : Growth}
    (h : initial.run (pre ++ e :: post) = .ok g) :
    ∃ g₁ g₂, initial.run pre = .ok g₁ ∧ Grows g₁ e g₂ := by
  rw [run_append, bind_eq_ok] at h
  obtain ⟨g₁, hpre, hrest⟩ := h
  rw [run_cons, bind_eq_ok] at hrest
  obtain ⟨g₂, hs, -⟩ := hrest
  exact ⟨g₁, g₂, hpre, step_eq_ok.1 hs⟩

end Growth

/-- What a text without a fault of its own becomes. It has a tree exactly when its tags are one
complete element, each start tag opens while fewer than `maxDepth` elements are open, and only what
may stand outside comes while none is. The tree has the marks of the text. And when the builder
refused nothing but there is no tree, the fault names the innermost open element, or says that the
text has no root. -/
theorem parse_recognizes {s : String} {events : List Event}
    (hread : (Event.trail (withoutMark s.toList)).items? = some events)
    (ha : ∀ e ∈ events, e.hasAttributes = true) :
    ((∃ e, parse s = .ok e) ↔
      Mark.OneElement (marksOf events) ∧
      (∀ pre uri tag post, events = pre ++ .start uri tag :: post →
        (openTags pre).length < maxDepth) ∧
      (∀ pre e post, events = pre ++ e :: post → openTags pre = [] → e.MayStandOutside)) ∧
    (∀ e, parse s = .ok e → e.walk = marksOf events) ∧
    ((∀ position cause, parse s ≠ .error (.markup position cause)) →
      (∀ tag rest, openTags events = tag :: rest →
        parse s = .error (.unclosedElement (localName tag))) ∧
      (marksOf events = [] → parse s = .error .missingRoot)) := by
  have hwalk : ∀ e, parse s = .ok e → e.walk = marksOf events := by
    intro e he
    rw [← Growth.walk_of_run (exists_run_of_parse hread he)]
    exact (List.append_nil _).symm
  refine ⟨⟨?_, ?_⟩, hwalk, ?_⟩
  · rintro ⟨e, he⟩
    have hr := exists_run_of_parse hread he
    refine ⟨hwalk e he ▸ Element.oneElement_walk e, ?_, ?_⟩
    · rintro pre uri tag post rfl
      obtain ⟨g, g', hpre, hg⟩ := Growth.grows_of_run hr
      rw [← Growth.length_stack_of_run hpre]
      cases hg with
      | start hd _ => exact hd
      | ignored hm _ => cases hm
    · rintro pre x post rfl hout
      obtain ⟨g, g', hpre, hg⟩ := Growth.grows_of_run hr
      have hlen := Growth.length_stack_of_run hpre
      rw [hout] at hlen
      cases hg with
      | start | empty | finish => trivial
      | ignored _ ho => exact ho (List.length_eq_zero_iff.1 hlen)
  · rintro ⟨hall, hd, ho⟩
    obtain ⟨g, hg⟩ := Growth.exists_run hall ha hd ho (List.prefix_refl events)
    obtain ⟨e, he⟩ := Growth.exists_finish (g := g) (Growth.walk_of_run hg ▸ hall)
    exact ⟨e, (parse_of_run hread hg).trans he⟩
  · intro hbuilt
    cases hr : Growth.initial.run events with
    | error cause =>
        obtain ⟨position, hp⟩ := grow_of_run_error hread hr
        exact absurd hp (hbuilt position cause)
    | ok g =>
        rw [parse_of_run hread hr]
        refine ⟨fun tag rest hopen => ?_, fun hnone => ?_⟩
        · have hn := Growth.names_of_run hr
          rw [hopen] at hn
          exact Growth.finish_of_open hn
        · exact Growth.finish_of_walk_eq_nil (Growth.walk_of_run hr ▸ hnone)

/-- A text with both kinds of childless element, and with markup that is passed over. -/
def mixedText : String := "<?p?><a x='1'>t<b/><c>]]></c></a> <!--d-->"

def mixedEvents : List Event :=
  [.skipped, .start none "a x='1'".toList, .text ['t'], .empty none ['b'], .start none ['c'],
    .text "]]>".toList, .finish, .finish, .skipped]

def mixedRoot : Element :=
  ⟨none, "a", [⟨none, "x", "1"⟩], [⟨none, "b", [], []⟩, ⟨none, "c", [], []⟩]⟩

theorem parse_recognizes_mixed :
    (Event.trail (withoutMark mixedText.toList)).items? = some mixedEvents ∧
      (∀ e ∈ mixedEvents, e.hasAttributes = true) ∧
      parse mixedText = .ok mixedRoot ∧ Mark.OneElement (marksOf mixedEvents) ∧
      mixedRoot.walk = marksOf mixedEvents := by
  have hread : (Event.trail (withoutMark mixedText.toList)).items? = some mixedEvents := by
    decide +kernel
  have ha : ∀ e ∈ mixedEvents, e.hasAttributes = true := by
    decide +kernel
  have hroot : parse mixedText = .ok mixedRoot := by
    decide +kernel
  obtain ⟨hiff, hwalk, -⟩ := parse_recognizes hread ha
  exact ⟨hread, ha, hroot, (hiff.1 ⟨_, hroot⟩).1, hwalk _ hroot⟩

end ActionSheet.Markup
