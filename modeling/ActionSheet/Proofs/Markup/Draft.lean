import ActionSheet.Proofs.Markup.Spelling
import ActionSheet.Markup.Tree

/-!
# Drafts, and the ways of writing them down

A draft is an element tree as an author has it in mind: names with their prefixes, attributes in
order with the values they are to have, and children. `Document` relates a draft to every text that
writes it down. The freedom is the author's: which quotation marks to use, how to spell a value,
whether to close a childless element in its own tag, and what to put between the children that is
no element at all.

The grammar below says nothing about reading. It is the second side of the completeness theorem in
`Document.lean`.
-/

namespace ActionSheet.Markup

open Text

/-- The characters of a plain name. -/
def isNameChar (c : Char) : Bool := c.isAlphanum || c = '.' || c = '-' || c = '_'

/-- A name as it is written. -/
def Name.chars : Name → List Char
  | ⟨none, part⟩ => part
  | ⟨some pre, part⟩ => pre ++ ':' :: part

/-- A part of a plain name: it is not empty. -/
def IsNamePart (s : List Char) : Prop := s ≠ [] ∧ s.all isNameChar = true

instance : DecidablePred IsNamePart := fun _ => inferInstanceAs (Decidable (_ ∧ _))

/-- A plain name, with a prefix or without. -/
def Name.IsPlain (n : Name) : Prop := IsNamePart n.part ∧ ∀ pre ∈ n.pre, IsNamePart pre

instance : DecidablePred Name.IsPlain := fun _ => inferInstanceAs (Decidable (_ ∧ _))

/-- An attribute with the value that it is to have. -/
structure Entry where
  name : Name
  value : List Char

namespace Entry

/-- The attribute that an entry is read as. -/
def toAttribute (a : Entry) : Attribute :=
  ⟨a.name.pre.map String.ofList, String.ofList a.name.part, String.ofList a.value⟩

/-- An entry declares a namespace. -/
def IsDeclaration (a : Entry) : Prop :=
  a.name.pre = some "xmlns".toList ∨ a.name = ⟨none, "xmlns".toList⟩

/-- An entry leaves the two reserved prefixes and their namespaces alone. -/
def IsPermitted (a : Entry) : Prop :=
  a.name.pre = some "xmlns".toList →
    a.name.part ≠ "xml".toList ∧ a.name.part ≠ "xmlns".toList ∧
      a.value ≠ xmlNamespace ∧ a.value ≠ xmlnsNamespace

instance : DecidablePred IsPermitted := fun _ => inferInstanceAs (Decidable (_ → _))

end Entry

/-- An element tree as it is to be written. -/
inductive Draft where
  | node (name : Name) (entries : List Entry) (children : List Draft)

namespace Draft

/-- The draft at an address. -/
def at? : Draft → List Nat → Option Draft
  | d, [] => some d
  | node _ _ children, i :: address => children[i]?.bind (·.at? address)

def hasChildren : Draft → Bool
  | node _ _ children => !children.isEmpty

mutual

/-- The number of levels of a draft. -/
def depth : Draft → Nat
  | node _ _ children => depthAll children + 1

def depthAll : List Draft → Nat
  | [] => 0
  | d :: ds => max (depth d) (depthAll ds)

end

mutual

/-- The names of a draft are plain, its keys differ within each element, and the reserved
namespaces are left alone. -/
def WellFormed : Draft → Prop
  | node name entries children =>
    name.IsPlain ∧ (∀ a ∈ entries, a.name.IsPlain ∧ a.IsPermitted) ∧
      (entries.map (·.name)).Nodup ∧ WellFormedAll children

def WellFormedAll : List Draft → Prop
  | [] => True
  | d :: ds => WellFormed d ∧ WellFormedAll ds

end

mutual

def decideWellFormed : (d : Draft) → Decidable d.WellFormed
  | node name entries children =>
    have := decideWellFormedAll children
    inferInstanceAs (Decidable (name.IsPlain ∧ (∀ a ∈ entries, a.name.IsPlain ∧ a.IsPermitted) ∧
      (entries.map (·.name)).Nodup ∧ WellFormedAll children))

def decideWellFormedAll : (ds : List Draft) → Decidable (WellFormedAll ds)
  | [] => inferInstanceAs (Decidable True)
  | d :: ds =>
    have := decideWellFormed d
    have := decideWellFormedAll ds
    inferInstanceAs (Decidable (d.WellFormed ∧ WellFormedAll ds))

end

instance : DecidablePred WellFormed := decideWellFormed

mutual

/-- The element of a draft, apart from namespaces. -/
def element : Draft → Element
  | node name entries children =>
    ⟨none, String.ofList name.part, entries.map Entry.toAttribute, elementAll children⟩

def elementAll : List Draft → List Element
  | [] => []
  | d :: ds => element d :: elementAll ds

end

/-! ## Texts -/

def Blank (s : List Char) : Prop := ∀ c ∈ s, isBlank c = true

/-- The attributes of a tag, each after some blanks. -/
inductive Entries : List Entry → List Char → Prop
  | nil {gap : List Char} : Blank gap → Entries [] gap
  | cons {a : Entry} {as : List Entry} {gap spelling s : List Char} {quote : Char} :
      gap ≠ [] → Blank gap → quote = '"' ∨ quote = '\'' → Spells quote a.value spelling →
      Entries as s →
      Entries (a :: as) (gap ++ a.name.chars ++ '=' :: quote :: (spelling ++ quote :: s))

/-- A comment or an instruction. -/
inductive Aside : List Char → Prop
  | comment {s : List Char} : ¬"-->".toList <:+: s → Aside ("<!--".toList ++ s ++ "-->".toList)
  | instruction {c : Char} {s : List Char} :
      c ≠ '>' → ¬"?>".toList <:+: c :: s → Aside ("<?".toList ++ c :: s ++ "?>".toList)

/-- What may stand between the children of an element and is none. -/
inductive Filler : List Char → Prop
  | text {s : List Char} : '<' ∉ s → Filler s
  | cdata {s : List Char} :
      ¬"]]>".toList <:+: s → Filler ("<![CDATA[".toList ++ s ++ "]]>".toList)
  | aside {s : List Char} : Aside s → Filler s

mutual

/-- A text writes a draft. A childless element may be closed in its own tag. -/
inductive Written : Draft → List Char → Prop
  | empty {name : Name} {entries : List Entry} {s : List Char} :
      Entries entries s → Written (node name entries []) ('<' :: (name.chars ++ s) ++ "/>".toList)
  | element {name : Name} {entries : List Entry} {children : List Draft} {s body : List Char} :
      Entries entries s → Content children body →
      Written (node name entries children)
        ('<' :: (name.chars ++ s) ++ ['>'] ++ body ++ ("</".toList ++ name.chars ++ ['>']))

/-- A text writes some drafts in order, with anything between them that is no element. -/
inductive Content : List Draft → List Char → Prop
  | nil : Content [] []
  | filler {ds : List Draft} {x s : List Char} : Filler x → Content ds s → Content ds (x ++ s)
  | child {d : Draft} {ds : List Draft} {x s : List Char} :
      Written d x → Content ds s → Content (d :: ds) (x ++ s)

end

/-- What may stand before and after the root. -/
inductive Margin : List Char → Prop
  | nil : Margin []
  | blanks {b s : List Char} : Blank b → Margin s → Margin (b ++ s)
  | aside {x s : List Char} : Aside x → Margin s → Margin (x ++ s)

/-- A text is a document with the draft as its root. -/
inductive Document (d : Draft) : List Char → Prop
  | root {before s after : List Char} :
      Margin before → Written d s → Margin after → Document d (before ++ (s ++ after))

end Draft

namespace Element

mutual

/-- A tree without its namespaces. -/
def bare : Element → Element
  | ⟨_, name, attributes, children⟩ => ⟨none, name, attributes, bareAll children⟩

def bareAll : List Element → List Element
  | [] => []
  | e :: es => bare e :: bareAll es

end

end Element

/-! ## Putting texts together -/

namespace Draft

theorem Content.append : ∀ {ds ds' : List Draft} {s s' : List Char}, Content ds s →
    Content ds' s' → Content (ds ++ ds') (s ++ s')
  | _, _, _, _, .nil, h' => h'
  | _, _, _, _, .filler hx hs, h' => by
      rw [List.append_assoc]
      exact .filler hx (hs.append h')
  | _, _, _, _, .child hx hs, h' => by
      rw [List.append_assoc]
      exact .child hx (hs.append h')

theorem Content.of_text {s : List Char} (h : '<' ∉ s) : Content [] s := by
  rw [← List.append_nil s]
  exact .filler (.text h) .nil

theorem Content.of_written {d : Draft} {s : List Char} (h : Written d s) : Content [d] s := by
  rw [← List.append_nil s]
  exact .child h .nil

theorem Content.padded {ds : List Draft} {before s after : List Char} (h : Content ds s)
    (hbefore : '<' ∉ before) (hafter : '<' ∉ after) : Content ds (before ++ s ++ after) := by
  have hall := ((Content.of_text hbefore).append h).append (.of_text hafter)
  rwa [List.nil_append, List.append_nil] at hall

theorem Content.flatMap {α : Type} {write : α → List Char} {plan : α → Draft}
    (h : ∀ a, Content [plan a] (write a)) (as : List α) :
    Content (as.map plan) (as.flatMap write) := by
  induction as with
  | nil => exact .nil
  | cons a as ih => exact (h a).append ih

theorem entries_nil : Entries [] [] := .nil nofun

end Draft

/-! ## Plain names -/

/-- The characters of a plain name as it is written. -/
def isKeyNameChar (c : Char) : Bool := isNameChar c || c = ':'

theorem Name.IsPlain.chars_spec {n : Name} (h : n.IsPlain) :
    n.chars ≠ [] ∧ ∀ c ∈ n.chars, isKeyNameChar c = true := by
  have hall : ∀ {s : List Char}, IsNamePart s → ∀ c ∈ s, isKeyNameChar c = true := by
    intro s hs c hc
    rw [isKeyNameChar, List.all_eq_true.1 hs.2 c hc]
    rfl
  obtain ⟨pre, part⟩ := n
  obtain ⟨hpart, hpre⟩ := h
  cases pre with
  | none => exact ⟨hpart.1, hall hpart⟩
  | some pre =>
      refine ⟨List.append_ne_nil_of_right_ne_nil _ (List.cons_ne_nil _ _), fun c hc => ?_⟩
      rcases List.mem_append.1 hc with hc | hc
      · exact hall (hpre pre rfl) c hc
      · rcases List.mem_cons.1 hc with rfl | hc
        · rfl
        · exact hall hpart c hc

theorem ne_colon_of_isNameChar {c : Char} (h : isNameChar c = true) : decide (c ≠ ':') = true :=
  decide_eq_true (ne_of_class (show isNameChar ':' = false from rfl) h).symm

theorem Name.IsPlain.ofChars_chars {n : Name} (h : n.IsPlain) : Name.ofChars n.chars = n := by
  obtain ⟨pre, part⟩ := n
  obtain ⟨hpart, hpre⟩ := h
  cases pre with
  | none =>
      have hdrop : (part ++ []).dropWhile (· ≠ ':') = [] :=
        List.dropWhile_append_of_pos fun c hc =>
          ne_colon_of_isNameChar (List.all_eq_true.1 hpart.2 c hc)
      rw [List.append_nil] at hdrop
      rw [chars, ofChars, hdrop]
  | some pre =>
      have hno : ∀ c ∈ pre, decide (c ≠ ':') = true :=
        fun c hc => ne_colon_of_isNameChar (List.all_eq_true.1 (hpre pre rfl).2 c hc)
      rw [chars, ofChars, List.dropWhile_append_of_pos hno, List.takeWhile_append_of_pos hno]
      simp

end ActionSheet.Markup
