import ActionSheet.Proofs.Markup.Preorder

/-!
# The walk below an element

Descendants can be met one at a time, with a stack of what is still to be visited. A step takes the
element on top and puts its children on the stack, the last of them first, so that the first is on top
when the next step comes. Nothing is known of a step but this, and `Meets` says which elements a walk
meets until its stack is empty.

The invariant of the walk is about the whole stack: the listings of the stacked subtrees, one after
the other, are what is still to be met, and a step takes the front off them (`listingAll_of_pop?`).
That the walk ends is seen from the same listings. The stack itself may get longer with a step, but the
elements of its subtrees are one less (`sizeAll_of_pop?`).
-/

namespace ActionSheet.Markup

namespace Element

/-! ## One element at a time -/

/-- Elements put on a stack one by one, the last of them first. -/
def pushAll (es stack : List Element) : List Element :=
  es.reverse.foldl (fun stack e => e :: stack) stack

theorem pushAll_eq (es stack : List Element) : pushAll es stack = es ++ stack := by
  rw [pushAll, List.foldl_reverse]
  induction es with
  | nil => rfl
  | cons e es ih => rw [List.foldr_cons, ih, List.cons_append]

/-- One step of a walk: the element on top of the stack, and the stack with its children instead. -/
def pop? : List Element → Option (Element × List Element)
  | [] => none
  | e :: stack => some (e, pushAll e.children stack)

/-- From a stack on, a walk meets some elements, and then its stack is empty. -/
inductive Meets : List Element → List Element → Prop
  | done {stack : List Element} : pop? stack = none → Meets stack []
  | next {stack rest found : List Element} {e : Element} :
      pop? stack = some (e, rest) → Meets rest found → Meets stack (e :: found)

theorem pop?_eq_some {stack rest : List Element} {e : Element} (h : pop? stack = some (e, rest)) :
    ∃ below, stack = e :: below ∧ rest = e.children ++ below := by
  cases stack with
  | nil => cases h
  | cons x below =>
      cases h
      exact ⟨below, rfl, pushAll_eq _ _⟩

theorem pop?_eq_none {stack : List Element} (h : pop? stack = none) : stack = [] := by
  cases stack with
  | nil => rfl
  | cons e stack => cases h

theorem listingAll_of_pop? {stack rest : List Element} {e : Element}
    (h : pop? stack = some (e, rest)) : listingAll stack = e :: listingAll rest := by
  obtain ⟨below, rfl, rfl⟩ := pop?_eq_some h
  rw [listingAll, listing_eq, listingAll_append, List.cons_append]

theorem sizeAll_of_pop? {stack rest : List Element} {e : Element}
    (h : pop? stack = some (e, rest)) : sizeAll stack = sizeAll rest + 1 := by
  obtain ⟨below, rfl, rfl⟩ := pop?_eq_some h
  rw [sizeAll, sizeAll_append, size_eq]
  omega

theorem Meets.eq_listingAll {stack found : List Element} (h : Meets stack found) :
    found = listingAll stack := by
  induction h with
  | done hnone => rw [pop?_eq_none hnone, listingAll]
  | next hpop _ ih => rw [listingAll_of_pop? hpop, ih]

theorem exists_meets (stack : List Element) : ∃ found, Meets stack found := by
  -- On the elements of the stacked subtrees, since the stack may grow.
  induction hsize : sizeAll stack generalizing stack with
  | zero =>
      cases hpop : pop? stack with
      | none => exact ⟨[], .done hpop⟩
      | some p =>
          rw [sizeAll_of_pop? hpop] at hsize
          cases hsize
  | succ n ih =>
      cases hpop : pop? stack with
      | none => exact ⟨[], .done hpop⟩
      | some p =>
          rw [sizeAll_of_pop? hpop] at hsize
          obtain ⟨found, hfound⟩ := ih p.2 (Nat.succ.inj hsize)
          exact ⟨p.1 :: found, .next hpop hfound⟩

theorem meets_iff {stack found : List Element} : Meets stack found ↔ found = visit stack := by
  rw [visit_eq]
  refine ⟨Meets.eq_listingAll, ?_⟩
  rintro rfl
  obtain ⟨found, hfound⟩ := exists_meets stack
  rwa [← hfound.eq_listingAll]

theorem Meets.length_eq {stack found : List Element} (h : Meets stack found) :
    found.length = sizeAll stack := by
  induction h with
  | done hnone => rw [pop?_eq_none hnone, sizeAll, List.length_nil]
  | next hpop _ ih => rw [sizeAll_of_pop? hpop, List.length_cons, ih]

theorem listingAll_eq_flatMap (es : List Element) :
    listingAll es = es.flatMap fun e => e :: e.descendants := by
  induction es with
  | nil => rw [listingAll, List.flatMap_nil]
  | cons e es ih => rw [listingAll, List.flatMap_cons, ih, listing_eq, descendants_eq]

/-! ## The order of addresses -/

/-- One address comes before another in a document: what stands there is around the other, or it is
in an earlier child of the element at which the ways to the two part. -/
def Precedes (a b : List Nat) : Prop :=
  (∃ c, c ≠ [] ∧ b = a ++ c) ∨
    ∃ way i j c d, i < j ∧ a = way ++ i :: c ∧ b = way ++ j :: d

theorem Precedes.cons {a b : List Nat} (h : Precedes a b) (i : Nat) : Precedes (i :: a) (i :: b) := by
  rcases h with ⟨c, hc, rfl⟩ | ⟨way, j, k, c, d, hlt, rfl, rfl⟩
  · exact .inl ⟨c, hc, rfl⟩
  · exact .inr ⟨i :: way, j, k, c, d, hlt, rfl, rfl⟩

theorem precedes_iff_lt {a b : List Nat} : Precedes a b ↔ a < b := by
  constructor
  · rintro (⟨c, hc, rfl⟩ | ⟨way, i, j, c, d, hlt, rfl, rfl⟩)
    · obtain ⟨i, c, rfl⟩ := List.exists_cons_of_ne_nil hc
      induction a with
      | nil => exact List.nil_lt_cons i c
      | cons k a ih => exact List.cons_lt_cons_iff.2 (.inr ⟨rfl, ih⟩)
    · induction way with
      | nil => exact List.cons_lt_cons_iff.2 (.inl hlt)
      | cons k way ih => exact List.cons_lt_cons_iff.2 (.inr ⟨rfl, ih⟩)
  · intro h
    induction a generalizing b with
    | nil =>
        cases b with
        | nil => exact absurd h (List.lt_irrefl [])
        | cons k b => exact .inl ⟨k :: b, List.cons_ne_nil k b, rfl⟩
    | cons i a ih =>
        cases b with
        | nil => exact absurd h (List.not_lt_nil _)
        | cons k b =>
            rcases List.cons_lt_cons_iff.1 h with hlt | ⟨rfl, hrest⟩
            · exact .inr ⟨[], i, k, a, b, hlt, rfl, rfl⟩
            · exact (ih hrest).cons i

theorem precedes_iff_of_pairwise {places : List (List Nat)} (h : places.Pairwise (· < ·))
    {i j : Nat} {a b : List Nat} (ha : places[i]? = some a) (hb : places[j]? = some b) :
    i < j ↔ Precedes a b := by
  obtain ⟨hi, rfl⟩ := List.getElem?_eq_some_iff.1 ha
  obtain ⟨hj, rfl⟩ := List.getElem?_eq_some_iff.1 hb
  rw [precedes_iff_lt]
  have hpairs := List.pairwise_iff_getElem.1 h
  refine ⟨hpairs i j hi hj, fun hlt => ?_⟩
  rcases Nat.lt_trichotomy i j with hij | rfl | hji
  · exact hij
  · exact absurd hlt (List.lt_irrefl _)
  · exact absurd (hpairs j i hj hi hji) (List.lt_asymm hlt)

/-! ## What is met below an element -/

/-- The walk below an element ends, and what it has met then is what a recursion over the tree lists:
each child, and after it what is below that child. So there is one place for every address below the
element and no other, and the places are in the order of the document, where an element comes before
all that is below it and behind all that is below an earlier sibling. -/
theorem descendants_in_order (e : Element) :
    (∀ found, Meets (pushAll e.children []) found ↔ found = e.descendants) ∧
    e.descendants.length + 1 = e.size ∧
    e :: e.descendants = e.listing ∧
    e.descendants = e.children.flatMap (fun c => c :: c.descendants) ∧
    ∃ places : List (List Nat), places.Nodup ∧
      List.Forall₂ (fun a x => e.at? a = some x) places e.descendants ∧
      (∀ a, a ∈ places ↔ a ≠ [] ∧ ∃ x, e.at? a = some x) ∧
      ∀ (i j : Nat) (a b : List Nat), places[i]? = some a → places[j]? = some b →
        (i < j ↔ Precedes a b) := by
  have hmeets : ∀ found, Meets (pushAll e.children []) found ↔ found = e.descendants := by
    intro found
    rw [pushAll_eq, List.append_nil, meets_iff, descendants]
  have hordered := pairwise_addressesAll e.children (i := 0)
  refine ⟨hmeets, ?_, ?_, ?_, addressesAll 0 e.children, ?_, ?_, fun a => mem_addressesAll_iff, ?_⟩
  · have hlength := ((hmeets _).2 rfl).length_eq
    rw [pushAll_eq, List.append_nil] at hlength
    rw [hlength, size_eq]
  · rw [descendants_eq, listing_eq]
  · rw [← listingAll_eq_flatMap, descendants_eq]
  · refine hordered.imp fun {a b} h heq => ?_
    rw [heq] at h
    exact List.lt_irrefl b h
  · rw [descendants_eq]
    exact at?_addressesAll e.children rfl
  · exact fun i j a b ha hb => precedes_iff_of_pairwise hordered ha hb

end Element

end ActionSheet.Markup
