import ActionSheet.Proofs.Markup.Walk
import Mathlib.Data.List.Induction

/-!
# Runs of the tree builder

`grow` reads a trail of events and stops at the first thing wrong. Here it is seen as a run over a
list: on a trail without a fault only the builder itself can refuse, so the outcome of `grow` is
the outcome of `Growth.run`, up to the position that a refusal is reported at.

Two facts hold after every run, whatever the events were. The marks of the events read so far are
the marks of what has grown (`walk_of_run`): nothing is lost, doubled or moved, not even while
elements are half built. And the elements waiting on the stack are the ones whose tags are still
open (`names_of_run`).
-/

namespace ActionSheet.Markup

theorem bind_eq_ok {ε α β : Type} {x : Except ε α} {f : α → Except ε β} {b : β} :
    (x >>= f) = .ok b ↔ ∃ a, x = .ok a ∧ f a = .ok b := by
  cases x with
  | error e =>
      refine ⟨nofun, ?_⟩
      rintro ⟨a, h, -⟩
      cases h
  | ok a =>
      refine ⟨fun h => ⟨a, rfl, h⟩, ?_⟩
      rintro ⟨a', h, hf⟩
      cases h
      exact hf

theorem bind_eq_error {ε α β : Type} {x : Except ε α} {f : α → Except ε β} {c : ε} :
    (x >>= f) = .error c ↔ x = .error c ∨ ∃ a, x = .ok a ∧ f a = .error c := by
  cases x with
  | error d =>
      refine ⟨fun h => .inl (by cases h; rfl), ?_⟩
      rintro (h | ⟨a, h, -⟩)
      · cases h
        rfl
      · cases h
  | ok a =>
      refine ⟨fun h => .inr ⟨a, rfl, h⟩, ?_⟩
      rintro (h | ⟨a', h, hf⟩)
      · cases h
      · cases h
        exact hf

theorem exists_eq_ok {ε α : Type} {x : Except ε α} (h : x.isOk = true) : ∃ a, x = .ok a := by
  cases x with
  | error e => cases h
  | ok a => exact ⟨a, rfl⟩

/-! ## Trails without a fault -/

/-- The items of a trail that ends without a fault. -/
def Trail.items? {α : Type} : Trail α → Option (List α)
  | .done => some []
  | .fault .. => none
  | .item a _ rest => rest.items?.map (a :: ·)

namespace Growth

/-- What has grown after some events. -/
def run (g : Growth) (events : List Event) : Except Cause Growth :=
  events.foldlM step g

theorem run_cons (g : Growth) (e : Event) (events : List Event) :
    g.run (e :: events) = (g.step e >>= fun g' => g'.run events) := rfl

theorem run_append (g : Growth) (pre post : List Event) :
    g.run (pre ++ post) = (g.run pre >>= fun g' => g'.run post) := by
  rw [run, List.foldlM_append]
  rfl

theorem run_concat_eq_ok {g g' : Growth} {pre : List Event} {e : Event} :
    g.run (pre ++ [e]) = .ok g' ↔ ∃ h, g.run pre = .ok h ∧ h.step e = .ok g' := by
  rw [run_append, bind_eq_ok]
  refine exists_congr fun h => and_congr_right fun _ => ?_
  rw [run_cons, bind_eq_ok]
  constructor
  · rintro ⟨k, hk, hr⟩
    cases hr
    exact hk
  · intro hs
    exact ⟨g', hs, rfl⟩

/-- What holds at first and is kept by every event holds after every run. -/
theorem run_induction {P : List Event → Growth → Prop} (h₀ : P [] initial)
    (hstep : ∀ pre g e g', P pre g → g.step e = .ok g' → P (pre ++ [e]) g') :
    ∀ {events : List Event} {g : Growth}, initial.run events = .ok g → P events g := by
  intro events
  induction events using List.reverseRecOn with
  | nil =>
      intro g h
      cases h
      exact h₀
  | append_singleton pre e ih =>
      intro g h
      obtain ⟨g', hpre, hs⟩ := run_concat_eq_ok.1 h
      exact hstep pre g' e g (ih hpre) hs

end Growth

/-- On a trail without a fault the tree is what the run makes of it. -/
theorem grow_of_run {trail : Trail Event} {events : List Event} {g g' : Growth}
    (ht : trail.items? = some events) (hr : g.run events = .ok g') :
    grow g trail = g'.finish := by
  induction trail generalizing g events with
  | done =>
      cases ht
      cases hr
      rfl
  | fault position cause => cases ht
  | item e position rest ih =>
      obtain ⟨more, hm, rfl⟩ := Option.map_eq_some_iff.1 ht
      rw [Growth.run_cons, bind_eq_ok] at hr
      obtain ⟨h, hs, hr⟩ := hr
      rw [grow, hs]
      exact ih hm hr

/-- On a trail without a fault whatever the builder refuses is reported as its own. -/
theorem grow_of_run_error {trail : Trail Event} {events : List Event} {g : Growth} {cause : Cause}
    (ht : trail.items? = some events) (hr : g.run events = .error cause) :
    ∃ position, grow g trail = .error (.markup position cause) := by
  induction trail generalizing g events with
  | done =>
      cases ht
      cases hr
  | fault position cause => cases ht
  | item e position rest ih =>
      obtain ⟨more, hm, rfl⟩ := Option.map_eq_some_iff.1 ht
      rw [Growth.run_cons] at hr
      rw [grow]
      cases hs : g.step e with
      | error c =>
          rw [hs] at hr
          cases hr
          exact ⟨position, rfl⟩
      | ok h =>
          rw [hs] at hr
          exact ih hm hr

namespace Growth

theorem finish_eq_ok {g : Growth} {e : Element} (h : g.finish = .ok e) : g = ⟨[], some e⟩ := by
  obtain ⟨stack, root⟩ := g
  cases stack with
  | cons f rest => cases h
  | nil =>
      cases root with
      | none => cases h
      | some r => cases h; rfl

end Growth

theorem parse_of_run {s : String} {events : List Event} {g : Growth}
    (hread : (Event.trail (withoutMark s.toList)).items? = some events)
    (hr : Growth.initial.run events = .ok g) : parse s = g.finish :=
  grow_of_run hread hr

theorem exists_run_of_parse {s : String} {events : List Event} {e : Element}
    (hread : (Event.trail (withoutMark s.toList)).items? = some events) (h : parse s = .ok e) :
    Growth.initial.run events = .ok ⟨[], some e⟩ := by
  cases hr : Growth.initial.run events with
  | error cause =>
      obtain ⟨position, hp⟩ := grow_of_run_error hread hr
      rw [← parse, h] at hp
      cases hp
  | ok g =>
      rw [parse_of_run hread hr] at h
      rw [Growth.finish_eq_ok h]

/-! ## The marks of what was read

An element that is still open has a first mark and the marks of the children it has so far, and no
last one. -/

/-- The local name of a tag. -/
def localName (tag : List Char) : String :=
  String.ofList (Name.ofChars (tagName tag)).part

/-- What a start tag says in a given namespace. -/
def Label.ofTag (uri : Option String) (tag : List Char) : Label :=
  ⟨uri, localName tag, readAttributes tag⟩

/-- The marks of an event; an empty tag opens and closes. -/
def Event.marks : Event → List (Mark Label)
  | .start uri tag => [.opened (.ofTag uri tag)]
  | .empty uri tag => [.opened (.ofTag uri tag), .closed]
  | .finish => [.closed]
  | .text _ | .cdata | .skipped => []

def marksOf (events : List Event) : List (Mark Label) :=
  events.flatMap Event.marks

@[simp] theorem marksOf_append (es fs : List Event) :
    marksOf (es ++ fs) = marksOf es ++ marksOf fs :=
  List.flatMap_append

@[simp] theorem marksOf_singleton (e : Event) : marksOf [e] = e.marks :=
  List.flatMap_singleton _ _

/-- Whether an event may come while no element is open. -/
def Event.MayStandOutside : Event → Prop
  | .text content => content.all Text.isAsciiBlank = true
  | .cdata => False
  | _ => True

/-- The tags that are open after an event, from those open before it, the innermost first. -/
def Event.tagsAfter (tags : List (List Char)) : Event → List (List Char)
  | .start _ tag => tag :: tags
  | .finish => tags.tail
  | _ => tags

/-- The tags that are open after some events, the innermost first. -/
def openTags (events : List Event) : List (List Char) :=
  events.foldl Event.tagsAfter []

theorem openTags_concat (events : List Event) (e : Event) :
    openTags (events ++ [e]) = e.tagsAfter (openTags events) := by
  rw [openTags, List.foldl_append]
  rfl

/-- The marks of an element that is open. -/
def Frame.walk (f : Frame) : List (Mark Label) :=
  .opened ⟨f.uri, f.name, .ok f.attributes⟩ :: Element.walkAll f.children.reverse

/-- The marks of what has grown. -/
def Growth.walk (g : Growth) : List (Mark Label) :=
  (g.root.elim [] Element.walk) ++ g.stack.reverse.flatMap Frame.walk

theorem Frame.walk_element (f : Frame) : f.element.walk = f.walk ++ [.closed] := by
  rw [element, Element.walk]
  rfl

theorem Frame.walk_child (f : Frame) (e : Element) :
    Frame.walk { f with children := e :: f.children } = f.walk ++ e.walk := by
  rw [walk, walk, List.reverse_cons, Element.walkAll_append, Element.walkAll, Element.walkAll,
    List.append_nil]
  rfl

theorem Growth.walk_cons (f : Frame) (rest : List Frame) (root : Option Element) :
    (Growth.mk (f :: rest) root).walk = (Growth.mk rest root).walk ++ f.walk := by
  rw [walk, walk, List.reverse_cons, List.flatMap_append, List.flatMap_singleton,
    List.append_assoc]

namespace Growth

/-- What attaching an element changes: the innermost open element has it as its latest child, or
it is the root. -/
theorem attach_eq_ok {g g' : Growth} {e : Element} (h : g.attach e = .ok g') :
    (∃ f rest, g.stack = f :: rest ∧
        g' = ⟨{ f with children := e :: f.children } :: rest, g.root⟩) ∨
      (g.stack = [] ∧ g.root = none ∧ g' = ⟨[], some e⟩) := by
  obtain ⟨stack, root⟩ := g
  cases stack with
  | cons f rest =>
      cases h
      exact .inl ⟨f, rest, rfl, rfl⟩
  | nil =>
      cases root with
      | none =>
          cases h
          exact .inr ⟨rfl, rfl, rfl⟩
      | some r => cases h

theorem walk_attach {g g' : Growth} {e : Element} (h : g.attach e = .ok g') :
    g'.walk = g.walk ++ e.walk := by
  obtain ⟨stack, root⟩ := g
  rcases attach_eq_ok h with ⟨f, rest, hs, rfl⟩ | ⟨hs, hr, rfl⟩
  · cases hs
    rw [walk_cons, walk_cons, Frame.walk_child, List.append_assoc]
  · cases hs
    cases hr
    exact List.append_nil _

theorem openFrame_eq_ok {uri : Option String} {tag : List Char} {f : Frame}
    (h : openFrame uri tag = .ok f) :
    ∃ attributes, readAttributes tag = .ok attributes ∧
      f = ⟨uri, localName tag, attributes, []⟩ := by
  obtain ⟨attributes, ha, hf⟩ := bind_eq_ok.1 h
  cases hf
  exact ⟨attributes, ha, rfl⟩

theorem walk_openFrame {uri : Option String} {tag : List Char} {f : Frame}
    (h : openFrame uri tag = .ok f) : f.walk = [.opened (.ofTag uri tag)] := by
  obtain ⟨attributes, ha, rfl⟩ := openFrame_eq_ok h
  rw [Label.ofTag, ha]
  rfl

/-- Everything an event can do to the tree. -/
inductive Grows (g : Growth) : Event → Growth → Prop
  | start {uri : Option String} {tag : List Char} {f : Frame} :
      g.stack.length < maxDepth → openFrame uri tag = .ok f →
      Grows g (.start uri tag) ⟨f :: g.stack, g.root⟩
  | empty {uri : Option String} {tag : List Char} {f : Frame} {g' : Growth} :
      openFrame uri tag = .ok f → g.attach f.element = .ok g' → Grows g (.empty uri tag) g'
  | finish {f : Frame} {rest : List Frame} {g' : Growth} :
      g.stack = f :: rest → attach ⟨rest, g.root⟩ f.element = .ok g' → Grows g .finish g'
  | ignored {e : Event} :
      e.marks = [] → (g.stack = [] → e.MayStandOutside) → Grows g e g

theorem step_eq_ok {g g' : Growth} {e : Event} : g.step e = .ok g' ↔ Grows g e g' := by
  obtain ⟨stack, root⟩ := g
  constructor
  · intro h
    cases e with
    | start uri tag =>
        rw [step] at h
        split at h
        · cases h
        · next hd =>
            obtain ⟨f, hf, hg⟩ := bind_eq_ok.1 h
            cases hg
            exact .start (Nat.lt_of_not_le hd) hf
    | empty uri tag =>
        obtain ⟨f, hf, hg⟩ := bind_eq_ok.1 h
        exact .empty hf hg
    | finish =>
        cases stack with
        | nil => cases h
        | cons f rest => exact .finish rfl h
    | text content =>
        rw [step] at h
        split at h
        · cases h
        · next hb =>
            cases h
            refine .ignored rfl fun hs => ?_
            cases hs
            simpa [Event.MayStandOutside] using hb
    | cdata =>
        rw [step] at h
        split at h
        · cases h
        · next hb =>
            cases h
            exact .ignored rfl fun hs => absurd (by rw [hs]; rfl) hb
    | skipped =>
        cases h
        exact .ignored rfl fun _ => trivial
  · intro h
    cases h with
    | start hd hf => rw [step, if_neg (Nat.not_le.2 hd), hf]; rfl
    | empty hf ha => rw [step, hf]; exact ha
    | finish hs ha => cases hs; exact ha
    | ignored hm ho =>
        cases e with
        | start | empty | finish => cases hm
        | skipped => rfl
        | text content =>
            cases stack with
            | nil =>
                have hb : content.all Text.isAsciiBlank = true := ho rfl
                rw [step, hb]
                rfl
            | cons f rest => rfl
        | cdata =>
            cases stack with
            | nil => exact False.elim (ho rfl)
            | cons f rest => rfl

theorem Grows.walk_eq {g g' : Growth} {e : Event} (h : Grows g e g') :
    g'.walk = g.walk ++ e.marks := by
  cases h with
  | start _ hf =>
      rw [walk_cons, walk_openFrame hf]
      rfl
  | empty hf ha =>
      rw [walk_attach ha, Frame.walk_element, walk_openFrame hf]
      rfl
  | @finish f rest _ hs ha =>
      obtain ⟨stack, root⟩ := g
      cases hs
      rw [walk_attach ha, Frame.walk_element, ← List.append_assoc, ← walk_cons]
      rfl
  | ignored hm _ => rw [hm, List.append_nil]

/-- The marks of what was read are the marks of what has grown. -/
theorem walk_of_run {events : List Event} {g : Growth} (h : initial.run events = .ok g) :
    g.walk = marksOf events := by
  refine run_induction (P := fun events g => g.walk = marksOf events) rfl ?_ h
  intro pre g e g' hpre hs
  rw [(step_eq_ok.1 hs).walk_eq, hpre, marksOf_append, marksOf_singleton]

/-! ## The elements that are open -/

theorem names_attach {g g' : Growth} {e : Element} (h : g.attach e = .ok g') :
    g'.stack.map (·.name) = g.stack.map (·.name) := by
  rcases attach_eq_ok h with ⟨f, rest, hs, rfl⟩ | ⟨hs, -, rfl⟩
  · rw [hs]
    rfl
  · rw [hs]

theorem Grows.names_eq {g g' : Growth} {e : Event} {tags : List (List Char)} (h : Grows g e g')
    (hn : g.stack.map (·.name) = tags.map localName) :
    g'.stack.map (·.name) = (e.tagsAfter tags).map localName := by
  cases h with
  | start _ hf =>
      obtain ⟨attributes, -, rfl⟩ := openFrame_eq_ok hf
      exact congrArg (_ :: ·) hn
  | empty _ ha => exact (names_attach ha).trans hn
  | finish hs ha =>
      rw [hs] at hn
      cases tags with
      | nil => cases hn
      | cons t ts => exact (names_attach ha).trans (List.cons.inj hn).2
  | ignored hm _ =>
      cases e with
      | start | empty | finish => cases hm
      | text | cdata | skipped => exact hn

/-- The elements on the stack are those whose tags are open. -/
theorem names_of_run {events : List Event} {g : Growth} (h : initial.run events = .ok g) :
    g.stack.map (·.name) = (openTags events).map localName := by
  refine run_induction (P := fun events g => g.stack.map (·.name) = (openTags events).map localName)
    rfl ?_ h
  intro pre g e g' hpre hs
  rw [openTags_concat]
  exact (step_eq_ok.1 hs).names_eq hpre

theorem length_stack_of_run {events : List Event} {g : Growth} (h : initial.run events = .ok g) :
    g.stack.length = (openTags events).length := by
  have := congrArg List.length (names_of_run h)
  rwa [List.length_map, List.length_map] at this

end Growth

end ActionSheet.Markup
