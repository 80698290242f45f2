import ActionSheet.Proofs.Markup.Outline
import Mathlib.Data.List.Forall2

/-!
# The elements of a tree in document order

`Element.descendants` keeps a list of what is still to be visited. The same elements can be listed by
recursion on the tree: an element, and then everything below one child after the other. `listing` is
that list, and `visit_eq` says that a list of pending subtrees is visited as the listings of these
subtrees, one after the other, which is the invariant of the walk.

A list of elements cannot tell two equal elements apart, so where each element is to be met exactly
once it is named by its address. Addresses are compared like the words of a dictionary, with numbers
for letters: what contains an element comes before it, and otherwise the earlier child decides. In a
document that is the order of the start tags, and `label_listing` says so by comparison with the
marks of the tree.
-/

namespace ActionSheet.Markup

namespace Element

mutual

/-- The elements of a subtree, each before what is below it. -/
def listing : Element → List Element
  | ⟨uri, name, attributes, children⟩ =>
    ⟨uri, name, attributes, children⟩ :: listingAll children

def listingAll : List Element → List Element
  | [] => []
  | e :: es => listing e ++ listingAll es

end

theorem listing_eq (e : Element) : e.listing = e :: listingAll e.children := by
  cases e
  rw [listing]

theorem listingAll_append (es fs : List Element) :
    listingAll (es ++ fs) = listingAll es ++ listingAll fs := by
  induction es with
  | nil => rfl
  | cons e es ih => rw [List.cons_append, listingAll, listingAll, ih, List.append_assoc]

/-- Whatever is pending is visited as if by recursion. -/
theorem visit_eq (es : List Element) : visit es = listingAll es := by
  induction es using visit.induct with
  | case1 => rw [visit, listingAll]
  | case2 e rest ih =>
      rw [visit, ih, listingAll_append, listingAll, listing_eq, List.cons_append]

theorem descendants_eq (e : Element) : e.descendants = listingAll e.children := by
  rw [descendants, visit_eq]

/-! ## The order of the start tags -/

end Element

/-- What the marks that open elements say, in their order. -/
def Mark.labels {α : Type} : List (Mark α) → List α
  | [] => []
  | .opened a :: ms => a :: labels ms
  | .closed :: ms => labels ms

theorem Mark.labels_append {α : Type} (ms ns : List (Mark α)) :
    labels (ms ++ ns) = labels ms ++ labels ns := by
  induction ms with
  | nil => rfl
  | cons m ms ih =>
      cases m with
      | opened a => rw [List.cons_append, labels, labels, ih, List.cons_append]
      | closed => rw [List.cons_append, labels, labels, ih]

namespace Element

mutual

/-- The listing meets the elements in the order in which they open. -/
theorem label_listing : ∀ e : Element, e.listing.map (·.label) = Mark.labels e.walk
  | ⟨uri, name, attributes, children⟩ => by
      rw [listing, walk, List.map_cons, Mark.labels, Mark.labels_append, label_listingAll children]
      simp [Mark.labels, label]

theorem label_listingAll : ∀ es : List Element,
    (listingAll es).map (·.label) = Mark.labels (walkAll es)
  | [] => by simp [listingAll, walkAll, Mark.labels]
  | e :: es => by
      rw [listingAll, walkAll, List.map_append, Mark.labels_append, label_listing e,
        label_listingAll es]

end

/-! ## Addresses -/

mutual

/-- The addresses of the elements of a subtree, in the order of the listing. -/
def addresses : Element → List (List Nat)
  | ⟨_, _, _, children⟩ => [] :: addressesAll 0 children

/-- The addresses below an element in those of its children that are left, from the number of the
first of them on. -/
def addressesAll (i : Nat) : List Element → List (List Nat)
  | [] => []
  | e :: es => (addresses e).map (i :: ·) ++ addressesAll (i + 1) es

end

theorem child_of_drop {e c : Element} {es : List Element} {i : Nat}
    (h : e.children.drop i = c :: es) :
    e.children[i]? = some c ∧ e.children.drop (i + 1) = es := by
  constructor
  · have hhead : (e.children.drop i)[0]? = some c := by rw [h]; rfl
    rwa [List.getElem?_drop, Nat.add_zero] at hhead
  · rw [← List.tail_drop, h, List.tail_cons]

mutual

theorem at?_addresses : ∀ e : Element,
    List.Forall₂ (fun a x => e.at? a = some x) (addresses e) e.listing
  | ⟨uri, name, attributes, children⟩ => by
      rw [addresses, listing]
      exact .cons rfl (at?_addressesAll children rfl)

theorem at?_addressesAll : ∀ (es : List Element) {e : Element} {i : Nat},
    e.children.drop i = es →
    List.Forall₂ (fun a x => e.at? a = some x) (addressesAll i es) (listingAll es)
  | [], e, i, _ => by
      rw [addressesAll, listingAll]
      exact .nil
  | c :: es, e, i, h => by
      obtain ⟨hchild, hrest⟩ := child_of_drop h
      rw [addressesAll, listingAll]
      refine List.rel_append ?_ (at?_addressesAll es hrest)
      rw [List.forall₂_map_left_iff]
      refine (at?_addresses c).imp fun a x ha => ?_
      rw [at?, hchild, Option.bind_some, ha]

end

theorem cons_mem_addressesAll {es : List Element} {i k : Nat} {c : Element} {a : List Nat}
    (hc : es[k]? = some c) (ha : a ∈ addresses c) : (i + k) :: a ∈ addressesAll i es := by
  induction es generalizing i k with
  | nil => cases hc
  | cons e es ih =>
      rw [addressesAll]
      cases k with
      | zero =>
          cases hc
          exact List.mem_append_left _ (List.mem_map_of_mem ha)
      | succ k =>
          have hmem : (i + 1 + k) :: a ∈ addressesAll (i + 1) es := ih hc
          rw [Nat.add_right_comm] at hmem
          exact List.mem_append_right _ hmem

/-- Every address at which there is an element is listed. -/
theorem mem_addresses_of_at? {e x : Element} {a : List Nat} (h : e.at? a = some x) :
    a ∈ addresses e := by
  induction a generalizing e with
  | nil =>
      obtain ⟨uri, name, attributes, children⟩ := e
      rw [addresses]
      exact List.mem_cons_self
  | cons i a ih =>
      rw [at?, Option.bind_eq_some_iff] at h
      obtain ⟨c, hc, hx⟩ := h
      obtain ⟨uri, name, attributes, children⟩ := e
      have hmem : (0 + i) :: a ∈ addressesAll 0 children := cons_mem_addressesAll hc (ih hx)
      rw [Nat.zero_add] at hmem
      rw [addresses]
      exact List.mem_cons_of_mem _ hmem

theorem exists_cons_of_mem_addressesAll {es : List Element} {i : Nat} {a : List Nat}
    (h : a ∈ addressesAll i es) : ∃ k b, a = k :: b ∧ i ≤ k := by
  induction es generalizing i with
  | nil => cases h
  | cons e es ih =>
      rw [addressesAll] at h
      rcases List.mem_append.1 h with h | h
      · obtain ⟨b, -, rfl⟩ := List.mem_map.1 h
        exact ⟨i, b, rfl, Nat.le_refl i⟩
      · obtain ⟨k, b, rfl, hk⟩ := ih h
        exact ⟨k, b, rfl, by omega⟩

mutual

theorem pairwise_addresses : ∀ e : Element, (addresses e).Pairwise (· < ·)
  | ⟨_, _, _, children⟩ => by
      rw [addresses, List.pairwise_cons]
      refine ⟨fun a ha => ?_, pairwise_addressesAll children⟩
      obtain ⟨k, b, rfl, -⟩ := exists_cons_of_mem_addressesAll ha
      exact List.nil_lt_cons k b

theorem pairwise_addressesAll : ∀ (es : List Element) {i : Nat},
    (addressesAll i es).Pairwise (· < ·)
  | [], i => by
      rw [addressesAll]
      exact .nil
  | e :: es, i => by
      rw [addressesAll, List.pairwise_append]
      refine ⟨?_, pairwise_addressesAll es, fun a ha b hb => ?_⟩
      · rw [List.pairwise_map]
        exact (pairwise_addresses e).imp fun h => List.cons_lt_cons_iff.2 (.inr ⟨rfl, h⟩)
      · obtain ⟨a, -, rfl⟩ := List.mem_map.1 ha
        obtain ⟨k, b, rfl, hk⟩ := exists_cons_of_mem_addressesAll hb
        exact List.cons_lt_cons_iff.2 (.inl (by omega))

end

/-! ## The elements that a test picks -/

/-- A list of elements is what a test picks from below an element, met at some addresses. These come
in document order, so none comes twice, and no element that is picked is missing. -/
structure IsSelection (e : Element) (picks : Element → Bool) (places : List (List Nat))
    (found : List Element) : Prop where
  ordered : places.Pairwise (· < ·)
  mem_iff : ∀ a, a ∈ places ↔ a ≠ [] ∧ ∃ x, e.at? a = some x ∧ picks x = true
  at_places : List.Forall₂ (fun a x => e.at? a = some x) places found

theorem mem_addressesAll_iff {e : Element} {a : List Nat} :
    a ∈ addressesAll 0 e.children ↔ a ≠ [] ∧ ∃ x, e.at? a = some x := by
  have heq : addresses e = [] :: addressesAll 0 e.children := by
    cases e
    rw [addresses]
  constructor
  · intro ha
    obtain ⟨k, b, rfl, -⟩ := exists_cons_of_mem_addressesAll ha
    obtain ⟨i, hi, hget⟩ := List.mem_iff_getElem.1 ha
    have hat := at?_addressesAll e.children (e := e) (i := 0) rfl
    have hlt : i < (listingAll e.children).length := hat.length_eq ▸ hi
    have hx := hat.get hi hlt
    rw [List.get_eq_getElem, hget] at hx
    exact ⟨List.cons_ne_nil k b, _, hx⟩
  · rintro ⟨hne, x, hx⟩
    have hmem := mem_addresses_of_at? hx
    rw [heq] at hmem
    exact (List.mem_cons.1 hmem).resolve_left hne

/-- Filtering the descendants meets every element that passes, once and in document order. -/
theorem exists_isSelection (e : Element) (picks : Element → Bool) :
    ∃ places, e.IsSelection picks places (e.descendants.filter picks) := by
  let passes (a : List Nat) : Bool := (e.at? a).any picks
  refine ⟨(addressesAll 0 e.children).filter passes, ?_, fun a => ?_, ?_⟩
  · exact (pairwise_addressesAll e.children).filter passes
  · rw [List.mem_filter, mem_addressesAll_iff, and_assoc]
    refine and_congr_right fun _ => ?_
    cases hx : e.at? a with
    | none => simp [passes, hx]
    | some x => simp [passes, hx]
  · rw [descendants_eq]
    refine List.rel_filter ?_ (at?_addressesAll e.children rfl)
    intro a x ha
    simp [passes, ha]

end Element

end ActionSheet.Markup
