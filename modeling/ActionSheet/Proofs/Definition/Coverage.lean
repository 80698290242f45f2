import ActionSheet.Proofs.Definition.Partition

/-!
# Which properties a definition finds

Properties are looked for below the root, and there every one of them is found, however deep it stands
and whatever stands around it. What this says of a tree is carried over to the text by the order in
which elements open, which is the order of the start tags (`exists_labels`).

The root itself is never looked at. A definition whose root is a property, with content even, loses
that property without a word, although it is as much a property as any other.
-/

namespace ActionSheet

open Markup

namespace Definition

theorem parse_eq_ok {body : String} {names : Namespaces} {d : Definition}
    (h : parse body names = .ok d) :
    Markup.parse body = .ok d.root ∧ d.core = names.core ∧
      d.annotationPrefix = names.annotationPrefix := by
  rw [parse, bind_eq_ok] at h
  obtain ⟨root, hroot, hd⟩ := h
  cases hd
  exact ⟨hroot, rfl, rfl⟩

/-- The elements of a document open in the order of its start tags. -/
theorem exists_labels {body : String} {root : Element} (h : Markup.parse body = .ok root) :
    ∃ events, (Event.trail (withoutMark body.toList)).items? = some events ∧
      (root :: root.descendants).map (·.label) = Mark.labels (marksOf events) := by
  obtain ⟨events, hevents⟩ := items?_of_grow h
  refine ⟨events, hevents, ?_⟩
  rw [Element.descendants_eq, ← Element.listing_eq, Element.label_listing,
    ← Growth.walk_of_run (exists_run_of_parse hevents h)]
  exact congrArg _ (List.append_nil _).symm

theorem accounted_at {d : Definition} {picks : Element → Bool} {places : List (List Nat)}
    (hplaces : d.root.IsSelection picks places d.argumentProperties) (identifying : List String)
    {i : Nat} {a : List Nat} {p : Element} (ha : places[i]? = some a)
    (hp : d.root.at? a = some p) :
    (∃ row, (d.render identifying).rows[(d.argumentProperties.take i).countP isComplete]? = some row ∧
      d.argument p = .ok row.argument) ∨ ∃ x ∈ (d.render identifying).skipped, x.index = i := by
  obtain ⟨hi, rfl⟩ := List.getElem?_eq_some_iff.1 ha
  have hi' : i < d.argumentProperties.length := hplaces.at_places.length_eq ▸ hi
  have hget := hplaces.at_places.get hi hi'
  rw [List.get_eq_getElem, hp] at hget
  have hat : d.argumentProperties[i]? = some p :=
    List.getElem?_eq_some_iff.2 ⟨hi', (Option.some.inj hget).symm⟩
  rcases d.split_outcomes.shown_or_missing hat with ⟨arg, harg, hshown⟩ | ⟨x, hx, hindex⟩
  · have hrows : (d.render identifying).rows.map (·.argument) = shown d.outcomes :=
      Row.map_argument_block identifying _
    rw [← hrows, List.getElem?_map, Option.map_eq_some_iff] at harg
    obtain ⟨row, hrow, rfl⟩ := harg
    exact .inl ⟨row, hrow, hshown⟩
  · exact .inr ⟨x, hx, hindex.trans (Nat.zero_add i)⟩

/-- Below the root every property is found, once and in the order of the start tags. Those with
content are the argument properties, and each of them is a row of its own or is reported as
missing. -/
theorem properties_below_root {body : String} {names : Namespaces} {d : Definition}
    (h : parse body names = .ok d) :
    (∃ events, (Event.trail (withoutMark body.toList)).items? = some events ∧
      (d.root :: d.root.descendants).map (·.label) = Mark.labels (marksOf events)) ∧
    (∃ places, d.root.IsSelection (·.isNamed names.core "Property") places d.properties) ∧
    ∃ places, d.root.IsSelection (fun e => e.isNamed names.core "Property" && e.hasElements) places
        d.argumentProperties ∧
      ∀ (identifying : List String) (i : Nat) (a : List Nat) (p : Element),
        places[i]? = some a → d.root.at? a = some p →
        (∃ row, (d.render identifying).rows[(d.argumentProperties.take i).countP isComplete]? =
            some row ∧ d.argument p = .ok row.argument) ∨
          ∃ x ∈ (d.render identifying).skipped, x.index = i := by
  obtain ⟨hroot, hcore, -⟩ := parse_eq_ok h
  obtain ⟨places, hplaces⟩ := d.root.exists_isSelection
    fun e => e.isNamed names.core "Property" && e.hasElements
  rw [← hcore, ← argumentProperties_eq, hcore] at hplaces
  refine ⟨exists_labels hroot, ?_, places, hplaces, ?_⟩
  · rw [properties, hcore]
    exact d.root.exists_isSelection _
  · exact fun identifying i a p ha hp => accounted_at hplaces identifying ha hp

theorem properties_below_root_gappy :
    parse gappyBody ⟨"u", "m"⟩ = .ok gappyDefinition ∧
      (∃ places, gappyRoot.IsSelection (·.isNamed "u" "Property") places gappyDefinition.properties ∧
        [1, 0] ∈ places ∧ [2] ∈ places) ∧
      gappyDefinition.properties.map (·.attributes.map (·.value)) =
        [[], ["n", "t"], ["m"], ["l", "t"]] ∧
      gappyDefinition.render ["a"] = gappyRendering := by
  have hd : parse gappyBody ⟨"u", "m"⟩ = .ok gappyDefinition := by
    rw [parse, parse_gappyBody]
    rfl
  obtain ⟨places, hplaces⟩ := (properties_below_root hd).2.1
  refine ⟨hd, ⟨places, hplaces, ?_, ?_⟩, ?_, render_gappyDefinition⟩
  · exact (hplaces.mem_iff [1, 0]).2 ⟨List.cons_ne_nil _ _, _, rfl, rfl⟩
  · exact (hplaces.mem_iff [2]).2 ⟨List.cons_ne_nil _ _, _, rfl, rfl⟩
  · rw [properties, Element.descendants_eq]
    decide

/-! ## A root that is a property -/

/-- A body whose root is a property with content. -/
def propertyRootBody : String :=
  "<Property xmlns='http://schemas.microsoft.com/winfx/2006/xaml' Name='n' Type='t'><i/></Property>"

theorem exists_propertyRoot : ∃ d, parse propertyRootBody {} = .ok d ∧
    d.root.isNamed ({} : Namespaces).core "Property" = true ∧ d.properties = [] := by
  have hread : (parse propertyRootBody {}).toOption.map (fun d =>
      (d.root.isNamed ({} : Namespaces).core "Property",
        (Element.listingAll d.root.children).any (·.isNamed d.core "Property"))) =
      some (true, false) := by
    decide +kernel
  cases hd : parse propertyRootBody {} with
  | error fault =>
      rw [hd] at hread
      cases hread
  | ok d =>
      rw [hd] at hread
      obtain ⟨hroot, hbelow⟩ := Prod.mk.inj (Option.some.inj hread)
      refine ⟨d, rfl, hroot, ?_⟩
      rw [properties, Element.descendants_eq, List.filter_eq_nil_iff]
      exact fun e he hnamed => List.any_eq_false.1 hbelow e he hnamed

/-- So it is not the case that every property of a document is found, wherever it stands. -/
theorem properties_without_root :
    ¬∀ (body : String) (names : Namespaces) (d : Definition), parse body names = .ok d →
      ∃ places : List (List Nat), places.Pairwise (· < ·) ∧
        (∀ a, a ∈ places ↔
          ∃ p, d.root.at? a = some p ∧ p.isNamed names.core "Property" = true) ∧
        List.Forall₂ (fun a p => d.root.at? a = some p) places d.properties := by
  intro hall
  obtain ⟨d, hd, hnamed, hnone⟩ := exists_propertyRoot
  obtain ⟨places, -, hmem, hat⟩ := hall propertyRootBody {} d hd
  have hroot : [] ∈ places := (hmem []).2 ⟨d.root, rfl, hnamed⟩
  rw [hnone, List.forall₂_nil_right_iff] at hat
  rw [hat] at hroot
  cases hroot

end Definition

end ActionSheet
