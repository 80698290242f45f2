import ActionSheet.Proofs.Definition.Remarks
import ActionSheet.Proofs.Markup.Lookup
import ActionSheet.Proofs.Markup.Run

/-!
# Every argument property is shown or missing

The argument properties of a definition are tried one after the other. What comes of each is kept in
one of two lists: the arguments that are shown, and the records of those that are missing. This file
says that the two lists together account for every property once.

What a property has and what it lacks is said of its attributes. The count that numbers the
properties goes over all of them and not over the ones that are shown, so `Split` carries it along: it
relates the properties from some place on to both lists, with one constructor for what can come of a
property. All statements about the lists are inductions on it.
-/

namespace ActionSheet

open Markup

namespace Definition

/-- What a property lacks, and the name it is reported with: the name is looked for first, and the
type only when there is one. -/
inductive Lacks (p : Element) : String → Option String → Prop
  | name : p.HasNoAttribute "Name" → Lacks p "Name" none
  | type {name : String} : p.HasAttribute "Name" name → p.HasNoAttribute "Type" →
      Lacks p "Type" (some name)

/-- Whether a property has all that an argument needs. -/
def isComplete (p : Element) : Bool :=
  p.attributes.any (·.fullName == (none, "Name")) && p.attributes.any (·.fullName == (none, "Type"))

theorem isComplete_eq_isSome (p : Element) :
    isComplete p = ((p.attribute? "Name").isSome && (p.attribute? "Type").isSome) := by
  rw [isComplete, Element.isSome_attribute?, Element.isSome_attribute?]

theorem Lacks.isComplete_eq {p : Element} {missing : String} {name : Option String}
    (h : Lacks p missing name) : isComplete p = false := by
  rw [isComplete_eq_isSome]
  cases h with
  | name hname =>
      rw [Element.attribute?_eq_none.2 hname]
      rfl
  | type _ htype =>
      rw [Element.attribute?_eq_none.2 htype]
      exact Bool.and_false _

/-- What a property lacks first is settled by the property. -/
theorem Lacks.unique {p : Element} {missing missing' : String} {name name' : Option String}
    (h : Lacks p missing name) (h' : Lacks p missing' name') :
    missing = missing' ∧ name = name' := by
  cases h with
  | name hnone =>
      cases h' with
      | name => exact ⟨rfl, rfl⟩
      | type hname => exact absurd hnone hname.not_hasNoAttribute
  | type hname =>
      cases h' with
      | name hnone => exact absurd hnone hname.not_hasNoAttribute
      | type hname' => exact ⟨rfl, congrArg some (hname.unique hname')⟩

theorem Lacks.outcome_eq {d : Definition} {p : Element} {missing : String} {name : Option String}
    (h : Lacks p missing name) (i : Nat) :
    d.outcome i p = .error ⟨i, name, .missingAttribute "Property" missing⟩ := by
  cases h with
  | name hname =>
      rw [outcome, argument, requiredAttribute, Element.attribute?_eq_none.2 hname]
      rfl
  | type hname htype =>
      rw [outcome, argument, requiredAttribute, requiredAttribute, Element.attribute?_eq_some.2 hname,
        Element.attribute?_eq_none.2 htype]
      rfl

/-- What can come of a property. -/
theorem outcome_cases (d : Definition) (p : Element) :
    (∃ a, isComplete p = true ∧ d.argument p = .ok a ∧ ∀ i, d.outcome i p = .ok a) ∨
      ∃ missing name, Lacks p missing name := by
  cases hname : p.attribute? "Name" with
  | none => exact .inr ⟨_, _, .name (Element.attribute?_eq_none.1 hname)⟩
  | some name =>
      cases htype : p.attribute? "Type" with
      | none =>
          exact .inr ⟨_, _, .type (Element.attribute?_eq_some.1 hname)
            (Element.attribute?_eq_none.1 htype)⟩
      | some type =>
          have h := argument_of_attributes (d := d) hname htype
          refine .inl ⟨_, ?_, h, fun i => ?_⟩
          · rw [isComplete_eq_isSome, hname, htype]
            rfl
          · rw [outcome, h]

/-- Properties from a place on, the arguments that are shown of them and those that are missing. -/
inductive Split (d : Definition) : Nat → List Element → List Argument → List SkippedArgument → Prop
  | nil {i : Nat} : Split d i [] [] []
  | shown {i : Nat} {p : Element} {a : Argument} {ps : List Element} {as : List Argument}
      {xs : List SkippedArgument} :
      isComplete p = true → d.argument p = .ok a → Split d (i + 1) ps as xs →
      Split d i (p :: ps) (a :: as) xs
  | missing {i : Nat} {p : Element} {what : String} {name : Option String} {ps : List Element}
      {as : List Argument} {xs : List SkippedArgument} :
      Lacks p what name → Split d (i + 1) ps as xs →
      Split d i (p :: ps) as (⟨i, name, .missingAttribute "Property" what⟩ :: xs)

theorem split_mapIdx (d : Definition) (ps : List Element) (i : Nat) :
    Split d i ps (shown (ps.mapIdx fun k => d.outcome (i + k)))
      (failed (ps.mapIdx fun k => d.outcome (i + k))) := by
  induction ps generalizing i with
  | nil => exact .nil
  | cons p ps ih =>
      have hrest : (fun k => d.outcome (i + (k + 1))) = fun k => d.outcome (i + 1 + k) := by
        funext k
        rw [Nat.add_right_comm, Nat.add_assoc]
      rw [List.mapIdx_cons, hrest, Nat.add_zero]
      rcases d.outcome_cases p with ⟨a, hcomplete, harg, hout⟩ | ⟨what, name, hlacks⟩
      · rw [hout i]
        exact .shown hcomplete harg (ih (i + 1))
      · rw [hlacks.outcome_eq i]
        exact .missing hlacks (ih (i + 1))

theorem split_outcomes (d : Definition) :
    Split d 0 d.argumentProperties (shown d.outcomes) (failed d.outcomes) := by
  have h := d.split_mapIdx d.argumentProperties 0
  simp only [Nat.zero_add] at h
  exact h

namespace Split

variable {d : Definition} {i : Nat} {ps : List Element} {as : List Argument}
  {xs : List SkippedArgument}

theorem length_add (h : Split d i ps as xs) : as.length + xs.length = ps.length := by
  induction h with
  | nil => rfl
  | shown _ _ _ ih => simp only [List.length_cons]; omega
  | missing _ _ ih => simp only [List.length_cons]; omega

theorem le_index (h : Split d i ps as xs) : ∀ x ∈ xs, i ≤ x.index := by
  induction h with
  | nil => exact nofun
  | shown _ _ _ ih => exact fun x hx => Nat.le_of_succ_le (ih x hx)
  | missing _ _ ih =>
      intro x hx
      rcases List.mem_cons.1 hx with rfl | hx
      · exact Nat.le_refl _
      · exact Nat.le_of_succ_le (ih x hx)

theorem pairwise_index (h : Split d i ps as xs) : (xs.map (·.index)).Pairwise (· < ·) := by
  induction h with
  | nil => exact .nil
  | shown _ _ _ ih => exact ih
  | missing _ hrest ih =>
      rw [List.map_cons, List.pairwise_cons]
      refine ⟨fun k hk => ?_, ih⟩
      obtain ⟨x, hx, rfl⟩ := List.mem_map.1 hk
      exact hrest.le_index x hx

/-- What is missing is what lacks something, at its place among all properties. -/
theorem mem_iff (h : Split d i ps as xs) {x : SkippedArgument} :
    x ∈ xs ↔ ∃ k p what, ps[k]? = some p ∧ x.index = i + k ∧ Lacks p what x.name ∧
      x.reason = .missingAttribute "Property" what := by
  induction h with
  | nil => simp
  | @shown i p a ps as xs hcomplete _ _ ih =>
      rw [ih]
      constructor
      · rintro ⟨k, q, what, hq, hindex, hrest⟩
        exact ⟨k + 1, q, what, hq, by omega, hrest⟩
      · rintro ⟨k, q, what, hq, hindex, hlacks, hreason⟩
        cases k with
        | zero =>
            cases hq
            rw [hlacks.isComplete_eq] at hcomplete
            cases hcomplete
        | succ k => exact ⟨k, q, what, hq, by omega, hlacks, hreason⟩
  | @missing i p what name ps as xs hlacks _ ih =>
      rw [List.mem_cons, ih]
      constructor
      · rintro (rfl | ⟨k, q, what, hq, hindex, hrest⟩)
        · exact ⟨0, p, what, rfl, rfl, hlacks, rfl⟩
        · exact ⟨k + 1, q, what, hq, by omega, hrest⟩
      · rintro ⟨k, q, what', hq, hindex, hlacks', hreason⟩
        cases k with
        | zero =>
            cases hq
            obtain ⟨index, name', reason⟩ := x
            obtain ⟨rfl, rfl⟩ := hlacks.unique hlacks'
            cases hindex
            cases hreason
            exact .inl rfl
        | succ k => exact .inr ⟨k, q, what', hq, by omega, hlacks', hreason⟩

/-- The arguments that are shown are those of the complete properties, in order. -/
theorem forall₂_shown (h : Split d i ps as xs) :
    List.Forall₂ (fun p a => d.argument p = .ok a) (ps.filter isComplete) as := by
  induction h with
  | nil => exact .nil
  | shown hcomplete harg _ ih =>
      rw [List.filter_cons_of_pos hcomplete]
      exact .cons harg ih
  | missing hlacks _ ih =>
      rw [List.filter_cons_of_neg (by simp [hlacks.isComplete_eq])]
      exact ih

/-- The property at a place is shown, below the rows of the complete ones before it, or it is reported
as missing from that place. -/
theorem shown_or_missing (h : Split d i ps as xs) {k : Nat} {p : Element} (hp : ps[k]? = some p) :
    (∃ a, as[(ps.take k).countP isComplete]? = some a ∧ d.argument p = .ok a) ∨
      ∃ x ∈ xs, x.index = i + k := by
  induction h generalizing k with
  | nil => cases hp
  | @shown i q a ps as xs hcomplete harg _ ih =>
      cases k with
      | zero =>
          cases hp
          exact .inl ⟨a, rfl, harg⟩
      | succ k =>
          rw [List.take_succ_cons, List.countP_cons_of_pos hcomplete, List.getElem?_cons_succ]
          rcases ih hp with hshown | ⟨x, hx, hindex⟩
          · exact .inl hshown
          · exact .inr ⟨x, hx, by omega⟩
  | @missing i q what name ps as xs hlacks _ ih =>
      cases k with
      | zero => exact .inr ⟨_, List.mem_cons_self, rfl⟩
      | succ k =>
          rw [List.take_succ_cons, List.countP_cons_of_neg (by simp [hlacks.isComplete_eq])]
          rcases ih hp with hshown | ⟨x, hx, hindex⟩
          · exact .inl hshown
          · exact .inr ⟨x, List.mem_cons_of_mem _ hx, by omega⟩

end Split

theorem argumentProperties_eq (d : Definition) :
    d.argumentProperties = d.root.descendants.filter
      fun e => e.isNamed d.core "Property" && e.hasElements := by
  rw [argumentProperties, properties, List.filter_filter]
  exact List.filter_congr fun e _ => Bool.and_comm _ _

/-- An element declares an argument: it is a property of the core namespace, and something stands in
it. -/
def DeclaresArgument (core : String) (e : Element) : Prop :=
  e.uri = some core ∧ e.name = "Property" ∧ e.children ≠ []

instance (core : String) : DecidablePred (DeclaresArgument core) :=
  fun e => inferInstanceAs (Decidable (e.uri = some core ∧ e.name = "Property" ∧ e.children ≠ []))

theorem declaresArgument_iff {core : String} {e : Element} :
    DeclaresArgument core e ↔ (e.isNamed core "Property" && e.hasElements) = true := by
  simp [DeclaresArgument, Element.isNamed, Element.hasElements, and_assoc, and_left_comm]

/-- The argument properties stand below the root, in document order. -/
theorem argumentProperties_eq_listing (d : Definition) :
    d.argumentProperties = (Element.listingAll d.root.children).filter (DeclaresArgument d.core) := by
  rw [argumentProperties_eq, Element.descendants_eq]
  refine List.filter_congr fun e _ => Bool.eq_iff_iff.2 ?_
  rw [decide_eq_true_iff, declaresArgument_iff]

end Definition

theorem Row.map_argument_block (identifying : List String) (as : List Argument) :
    (Row.block identifying as).map (·.argument) = as := by
  cases as with
  | nil => rfl
  | cons a as =>
      have hrest : (as.map Row.following).map (·.argument) = as := by
        rw [List.map_map]
        exact List.map_id as
      rw [Row.block, List.map_cons, hrest]
      cases identifying.isEmpty <;> rfl

open Definition in
/-- A rendering accounts for some properties: each is described by a row or reported as missing, and
both lists are in the order of the properties. -/
structure Rendering.AccountsFor (r : Rendering) (ps : List Element) : Prop where
  /-- A property is missing exactly if it lacks something, and it is reported with its number among
  all of them, with the first thing that it lacks, and with its name if that is not it. -/
  missing : ∀ x, x ∈ r.skipped ↔ ∃ p what, ps[x.index]? = some p ∧ Lacks p what x.name ∧
    x.reason = .missingAttribute "Property" what
  ordered : (r.skipped.map (·.index)).Pairwise (· < ·)
  /-- The rows are those of the others, one after the other. -/
  shown : List.Forall₂ (fun p row => p.HasAttribute "Name" row.argument.name ∧
    p.HasAttribute "Type" row.argument.type) (ps.filter isComplete) r.rows
  total : r.rows.length + r.skipped.length = ps.length

theorem Definition.accountsFor_render (d : Definition) (identifying : List String) :
    (d.render identifying).AccountsFor d.argumentProperties := by
  have h := d.split_outcomes
  have hrows : (d.render identifying).rows.map (·.argument) = shown d.outcomes :=
    Row.map_argument_block identifying _
  refine ⟨fun x => ?_, h.pairwise_index, ?_, ?_⟩
  · refine h.mem_iff.trans ⟨?_, ?_⟩
    · rintro ⟨k, p, what, hp, hindex, hrest⟩
      rw [Nat.zero_add] at hindex
      exact ⟨p, what, hindex ▸ hp, hrest⟩
    · rintro ⟨p, what, hp, hrest⟩
      exact ⟨x.index, p, what, hp, (Nat.zero_add _).symm, hrest⟩
  · have hshown := h.forall₂_shown
    rw [← hrows, List.forall₂_map_right_iff] at hshown
    refine hshown.imp fun p row hrow => ?_
    obtain ⟨hname, htype⟩ := attributes_of_argument hrow
    exact ⟨Element.attribute?_eq_some.1 hname, Element.attribute?_eq_some.1 htype⟩
  · rw [← h.length_add, ← hrows, List.length_map]
    rfl

/-- Of a body that is a document, the properties with content are all accounted for. They are met
wherever they stand below the root, in document order. -/
theorem renderBody_accountsFor {body : String} {root : Element} (h : Markup.parse body = .ok root)
    (names : Namespaces) (identifying : List String) :
    ∃ rendering, renderBody body identifying names = .ok rendering ∧
      rendering.AccountsFor ((Element.listingAll root.children).filter
        (Definition.DeclaresArgument names.core)) := by
  let d : Definition := ⟨root, names.core, names.annotationPrefix⟩
  refine ⟨d.render identifying, ?_, ?_⟩
  · rw [renderBody_eq, h]
    rfl
  · have hps := d.accountsFor_render identifying
    rw [d.argumentProperties_eq_listing] at hps
    exact hps

/-- A body with a property that lacks both its name and its type, one inside another that lacks its
type, and one without content. -/
def gappyBody : String :=
  "<r xmlns:x='u'><x:Property><i/></x:Property><x:Property Name='n' Type='t'>" ++
    "<x:Property Name='m'><i/></x:Property></x:Property><x:Property Name='l' Type='t'/></r>"

def gappyRoot : Element :=
  ⟨none, "r", [⟨some "xmlns", "x", "u"⟩],
    [⟨some "u", "Property", [], [⟨none, "i", [], []⟩]⟩,
      ⟨some "u", "Property", [⟨none, "Name", "n"⟩, ⟨none, "Type", "t"⟩],
        [⟨some "u", "Property", [⟨none, "Name", "m"⟩], [⟨none, "i", [], []⟩]⟩]⟩,
      ⟨some "u", "Property", [⟨none, "Name", "l"⟩, ⟨none, "Type", "t"⟩], []⟩]⟩

def gappyDefinition : Definition :=
  ⟨gappyRoot, "u", "m"⟩

/-- One row for three properties: the first and the third are missing. -/
def gappyRendering : Rendering :=
  ⟨[.leading [⟨"a", 1⟩] { name := "n", type := "t" }],
    [⟨0, none, .missingAttribute "Property" "Name"⟩,
      ⟨2, some "m", .missingAttribute "Property" "Type"⟩]⟩

theorem parse_gappyBody : Markup.parse gappyBody = .ok gappyRoot := by
  decide +kernel

theorem render_gappyDefinition : gappyDefinition.render ["a"] = gappyRendering := by
  rw [Definition.render, Definition.outcomes, Definition.argumentProperties_eq_listing]
  decide +kernel

theorem renderBody_accountsFor_gappy :
    Markup.parse gappyBody = .ok gappyRoot ∧
      renderBody gappyBody ["a"] ⟨"u", "m"⟩ = .ok gappyRendering ∧
      gappyRendering.AccountsFor ((Element.listingAll gappyRoot.children).filter
        (Definition.DeclaresArgument "u")) := by
  obtain ⟨rendering, hrendering, haccounts⟩ :=
    renderBody_accountsFor parse_gappyBody ⟨"u", "m"⟩ ["a"]
  have hgappy : renderBody gappyBody ["a"] ⟨"u", "m"⟩ = .ok gappyRendering := by
    rw [renderBody_eq, parse_gappyBody]
    exact congrArg Except.ok render_gappyDefinition
  cases hgappy.symm.trans hrendering
  exact ⟨parse_gappyBody, hgappy, haccounts⟩

end ActionSheet
