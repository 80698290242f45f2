import ActionSheet.Markup.Tree

/-!
# Tags in the order of a document

A tree and the text it was read from have one thing in common that can be compared directly: the
order in which elements open and close. `Element.walk` lists that order for a tree, depth first.
This file holds the marks that such a list is made of, and says which lists of marks are one
complete element.

`Nested` is the grammar of balanced marks and `OneElement` its instances with one element on the
outside. What the later arguments take from the grammar is a count, `level`: it never falls below
zero inside a balanced list, and inside one element it stays above zero until the last mark. So no
complete element is the front of a longer one, which is why a second root cannot hide behind the
first.
-/

namespace ActionSheet.Markup

/-- An element opens, or the innermost open element closes. -/
inductive Mark (α : Type) where
  | opened (label : α)
  | closed
  deriving Repr

/-- What a start tag says of its element. Attributes that cannot be read have a cause instead. -/
structure Label where
  uri : Option String
  name : String
  attributes : Except Cause (List Attribute)

namespace Element

mutual

/-- The marks of a subtree in document order. -/
def walk : Element → List (Mark Label)
  | ⟨uri, name, attributes, children⟩ =>
    .opened ⟨uri, name, .ok attributes⟩ :: (walkAll children ++ [.closed])

def walkAll : List Element → List (Mark Label)
  | [] => []
  | e :: es => walk e ++ walkAll es

end

theorem walkAll_append (es fs : List Element) :
    walkAll (es ++ fs) = walkAll es ++ walkAll fs := by
  induction es with
  | nil => rfl
  | cons e es ih => rw [List.cons_append, walkAll, walkAll, ih, List.append_assoc]

end Element

namespace Mark

variable {α : Type}

/-- Marks that are complete elements side by side. -/
inductive Nested : List (Mark α) → Prop
  | nil : Nested []
  | cons {a : α} {inner rest : List (Mark α)} :
      Nested inner → Nested rest → Nested (opened a :: (inner ++ closed :: rest))

/-- Marks that are exactly one complete element. -/
def OneElement (ms : List (Mark α)) : Prop :=
  ∃ a inner, Nested inner ∧ ms = opened a :: (inner ++ [closed])

/-- How many elements are open after some marks. -/
def level : List (Mark α) → Int
  | [] => 0
  | opened _ :: ms => level ms + 1
  | closed :: ms => level ms - 1

@[simp] theorem level_nil : level ([] : List (Mark α)) = 0 := rfl

@[simp] theorem level_opened (a : α) (ms : List (Mark α)) :
    level (opened a :: ms) = level ms + 1 := rfl

@[simp] theorem level_closed (ms : List (Mark α)) : level (closed :: ms) = level ms - 1 := rfl

@[simp] theorem level_append (ms ns : List (Mark α)) : level (ms ++ ns) = level ms + level ns := by
  induction ms with
  | nil => simp
  | cons m ms ih =>
      cases m with
      | opened a => rw [List.cons_append, level_opened, level_opened, ih]; omega
      | closed => rw [List.cons_append, level_closed, level_closed, ih]; omega

theorem Nested.append {ms ns : List (Mark α)} (hm : Nested ms) (hn : Nested ns) :
    Nested (ms ++ ns) := by
  induction hm with
  | nil => exact hn
  | cons hi _ _ ih =>
      rw [List.cons_append, List.append_assoc, List.cons_append]
      exact .cons hi ih

theorem Nested.level_eq_zero {ms : List (Mark α)} (h : Nested ms) : level ms = 0 := by
  induction h with
  | nil => rfl
  | cons _ _ ihi ihr => rw [level_opened, level_append, level_closed, ihi, ihr]; omega

theorem OneElement.nested {ms : List (Mark α)} (h : OneElement ms) : Nested ms := by
  obtain ⟨a, inner, hi, rfl⟩ := h
  exact .cons hi .nil

/-- The front of a concatenation lies inside the first part, or holds it. -/
theorem prefix_append_cases {β : Type} {p s t : List β} (h : p <+: s ++ t) :
    p <+: s ∨ ∃ q, p = s ++ q ∧ q <+: t := by
  obtain ⟨r, hr⟩ := h
  rcases List.append_eq_append_iff.1 hr with ⟨x, hs, -⟩ | ⟨x, hp, ht⟩
  · exact .inl ⟨x, hs.symm⟩
  · exact .inr ⟨x, hp, r, ht.symm⟩

theorem Nested.level_nonneg {ms : List (Mark α)} (h : Nested ms) :
    ∀ {p : List (Mark α)}, p <+: ms → 0 ≤ level p := by
  induction h with
  | nil =>
      intro p hp
      rw [List.prefix_nil.1 hp]
      exact Int.le_refl 0
  | @cons a inner rest hi _ ihi ihr =>
      intro p hp
      rcases List.prefix_cons_iff.1 hp with rfl | ⟨q, rfl, hq⟩
      · exact Int.le_refl 0
      · rw [level_opened]
        rcases prefix_append_cases hq with hq | ⟨r, rfl, hr⟩
        · have := ihi hq
          omega
        · rw [level_append, hi.level_eq_zero]
          rcases List.prefix_cons_iff.1 hr with rfl | ⟨t, rfl, ht⟩
          · simp
          · have := ihr ht
            rw [level_closed]
            omega

/-- Before its last mark an element is open. -/
theorem OneElement.level_pos {ms p : List (Mark α)} (h : OneElement ms) (hp : p <+: ms)
    (hne : p ≠ []) (hlt : p ≠ ms) : 0 < level p := by
  obtain ⟨a, inner, hi, rfl⟩ := h
  rcases List.prefix_cons_iff.1 hp with rfl | ⟨q, rfl, hq⟩
  · exact absurd rfl hne
  · rw [level_opened]
    rcases prefix_append_cases hq with hq | ⟨r, rfl, hr⟩
    · have := hi.level_nonneg hq
      omega
    · rcases List.prefix_cons_iff.1 hr with rfl | ⟨t, rfl, ht⟩
      · rw [List.append_nil, hi.level_eq_zero]
        omega
      · rw [List.prefix_nil.1 ht] at hlt
        exact absurd rfl hlt

theorem OneElement.ne_nil {ms : List (Mark α)} (h : OneElement ms) : ms ≠ [] := by
  obtain ⟨a, inner, -, rfl⟩ := h
  exact List.cons_ne_nil _ _

/-- No complete element is the front of a longer one. -/
theorem OneElement.eq_of_isPrefix {ms ns : List (Mark α)} (hm : OneElement ms) (hn : OneElement ns)
    (hp : ms <+: ns) : ms = ns := by
  by_cases heq : ms = ns
  · exact heq
  · have hpos := hn.level_pos hp hm.ne_nil heq
    rw [hm.nested.level_eq_zero] at hpos
    exact absurd hpos (Int.lt_irrefl 0)

end Mark

namespace Element

open Mark

mutual

theorem oneElement_walk : ∀ e : Element, OneElement e.walk
  | ⟨uri, name, attributes, children⟩ => by
      rw [walk]
      exact ⟨_, _, nested_walkAll children, rfl⟩

theorem nested_walkAll : ∀ es : List Element, Nested (walkAll es)
  | [] => by
      rw [walkAll]
      exact .nil
  | e :: es => by
      rw [walkAll]
      exact (oneElement_walk e).nested.append (nested_walkAll es)

end

end Element

end ActionSheet.Markup
