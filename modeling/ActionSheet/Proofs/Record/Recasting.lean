import Mathlib.Data.List.Forall2
import ActionSheet.Proofs.Json.Printing
import ActionSheet.Proofs.Record.Scalar

/-!
# Encodings in another guise

A stored record need not be the object that the library would write for it. Its members may stand in
another order, members that the library has never heard of may stand among them, and a member that
has a default may be missing; and all of that again in every record inside it. `Recast` is that
relation between what is written and what is given, with a third value beside them: what the given
one stands for, which is what was written but for the defaults.

A `Form` says which fields an encoding has and which of them may be missing. It is stated beside the
readers and not taken from them, so that a reader which asks for another name, or falls back on
another value, does not recover what was written.

The order of the members is dealt with once. Whatever a reader asks for by name, it finds what was
given for that field, or finds nothing because nothing was given (`Recast.exists_members`); from
there on a reader is its fields, one after the other, and the order is not heard of again.
-/

namespace ActionSheet.Record

open Json (Printable named)

structure FieldForm (φ : Type) where
  name : String
  form : φ
  /-- What a missing field is taken to hold; without it the field must be there. -/
  default : Option Json := none

/-- What an encoding is made of. -/
inductive Form where
  /-- A value without fields. -/
  | scalar
  | list (element : Form)
  | record (fields : List (FieldForm Form))

mutual

/-- What is written, what is given for it, and what that stands for. -/
inductive Recast : Form → Json → Json → Json → Prop
  | scalar (v : Json) : Recast .scalar v v v
  | list {element : Form} {vs js rs : List Json} (h : RecastItems element vs js rs) :
      Recast (.list element) (.array vs) (.array js) (.array rs)
  /-- The members stand in any order, and among them others that no field is called by. -/
  | record {fields : List (FieldForm Form)} {vs js rs extra members : List (String × Json)}
      (h : RecastMembers fields vs js rs) (hextra : ∀ m ∈ extra, m.1 ∉ fields.map (·.name))
      (hperm : members.Perm (js ++ extra)) :
      Recast (.record fields) (.record vs) (.record members) (.record rs)

inductive RecastItems : Form → List Json → List Json → List Json → Prop
  | nil {element : Form} : RecastItems element [] [] []
  | cons {element : Form} {v j r : Json} {vs js rs : List Json} (h : Recast element v j r)
      (hrest : RecastItems element vs js rs) : RecastItems element (v :: vs) (j :: js) (r :: rs)

/-- `Recast` along a list of members, where a member that has a default may be left out. -/
inductive RecastMembers : List (FieldForm Form) → List (String × Json) → List (String × Json) →
    List (String × Json) → Prop
  | nil : RecastMembers [] [] [] []
  | kept {f : FieldForm Form} {fields : List (FieldForm Form)} {v j r : Json}
      {vs js rs : List (String × Json)} (h : Recast f.form v j r)
      (hrest : RecastMembers fields vs js rs) :
      RecastMembers (f :: fields) ((f.name, v) :: vs) ((f.name, j) :: js) ((f.name, r) :: rs)
  | missing {f : FieldForm Form} {fields : List (FieldForm Form)} {v d : Json}
      {vs js rs : List (String × Json)} (h : f.default = some d)
      (hrest : RecastMembers fields vs js rs) :
      RecastMembers (f :: fields) ((f.name, v) :: vs) js ((f.name, d) :: rs)

end

/-! ## Encodings as they are written -/

/-- A value that has the parts of a form, and that the printer can write. -/
structure Fits (form : Form) (v : Json) : Prop where
  /-- A value stands for itself. -/
  recast : Recast form v v v
  printable : Printable v

theorem Fits.list {α : Type} {element : Form} {write : α → Json} {xs : List α}
    (h : ∀ x ∈ xs, Fits element (write x)) : Fits (.list element) (.list write xs) := by
  refine ⟨.list ?_, .array ?_⟩
  · induction xs with
    | nil => exact .nil
    | cons x xs ih =>
        exact .cons (h x List.mem_cons_self).recast (ih fun y hy => h y (List.mem_cons_of_mem x hy))
  · intro v hv
    obtain ⟨x, hx, rfl⟩ := List.mem_map.1 hv
    exact (h x hx).printable

theorem Fits.record {fields : List (FieldForm Form)} {vs : List (String × Json)}
    (h : List.Forall₂ (fun f m => m.1 = f.name ∧ Fits f.form m.2) fields vs) :
    Fits (.record fields) (.record vs) := by
  have hmembers : RecastMembers fields vs vs vs ∧ ∀ m ∈ vs, Printable m.2 := by
    induction h with
    | nil => exact ⟨.nil, fun m hm => nomatch hm⟩
    | @cons f m fields vs hm _ ih =>
        obtain ⟨name, v⟩ := m
        obtain ⟨rfl, hfits⟩ := hm
        exact ⟨.kept hfits.recast ih.1, List.forall_mem_cons.2 ⟨hfits.printable, ih.2⟩⟩
  have hperm : vs.Perm (vs ++ []) := by
    rw [List.append_nil]
  exact ⟨.record hmembers.1 (List.forall_mem_nil _) hperm, .record hmembers.2⟩

/-! ## Looking up a field -/

theorem lookup_of_mem {l : List (String × Json)} (hnodup : (l.map (·.1)).Nodup) {name : String}
    {v : Json} (h : (name, v) ∈ l) : l.lookup name = some v := by
  induction l with
  | nil => cases h
  | cons m l ih =>
      rw [List.map_cons, List.nodup_cons] at hnodup
      rcases List.mem_cons.1 h with rfl | h
      · exact List.lookup_cons_self
      · have hne : (name == m.1) = false := beq_false_of_ne fun heq =>
          hnodup.1 (List.mem_map.2 ⟨_, h, heq⟩)
        rw [List.lookup_cons, hne]
        exact ih hnodup.2 h

theorem lookup_of_not_mem {l : List (String × Json)} {name : String} (h : name ∉ l.map (·.1)) :
    l.lookup name = none := by
  refine List.lookup_eq_none_iff.2 fun m hm => ?_
  exact bne_iff_ne.2 fun heq => h (List.mem_map.2 ⟨m, hm, heq.symm⟩)

/-- The members that are called by one of some names. -/
def called (names : List String) (members : List (String × Json)) : List (String × Json) :=
  members.filter fun m => names.contains m.1

theorem lookup_called (names : List String) {name : String} (h : name ∈ names)
    (members : List (String × Json)) : (called names members).lookup name = members.lookup name := by
  induction members with
  | nil => rfl
  | cons m members ih =>
      rw [called] at ih ⊢
      rw [List.filter_cons]
      split
      · rw [List.lookup_cons, List.lookup_cons, ih]
      · next hm =>
          have hne : (name == m.1) = false := beq_false_of_ne fun heq =>
            hm (List.contains_iff_mem.2 (heq ▸ h))
          rw [List.lookup_cons, hne, ih]

theorem perm_called {names : List String} {js extra members : List (String × Json)}
    (hperm : members.Perm (js ++ extra)) (hextra : ∀ m ∈ extra, m.1 ∉ names) :
    (called names members).Perm (called names js) := by
  have hnone : called names extra = [] :=
    List.filter_eq_nil_iff.2 fun m hm hc => hextra m hm (List.contains_iff_mem.1 hc)
  have := hperm.filter fun m => names.contains m.1
  rw [List.filter_append] at this
  rwa [← called, ← called, ← called, hnone, List.append_nil] at this

theorem RecastMembers.sublist {fields : List (FieldForm Form)} {vs js rs : List (String × Json)} :
    RecastMembers fields vs js rs → (js.map (·.1)).Sublist (fields.map (·.name))
  | .nil => .refl _
  | .kept _ hrest => hrest.sublist.cons_cons _
  | .missing _ hrest => hrest.sublist.cons _

/-- What is found under the name of a field, and what that stands for. -/
inductive Found (f : FieldForm Form) (v : Json) : Option Json → Json → Prop
  | kept {j r : Json} (h : Recast f.form v j r) : Found f v (some j) r
  | missing {d : Json} (h : f.default = some d) : Found f v none d

inductive FoundAll (find : String → Option Json) :
    List (FieldForm Form) → List (String × Json) → List (String × Json) → Prop
  | nil : FoundAll find [] [] []
  | cons {f : FieldForm Form} {fields : List (FieldForm Form)} {v r : Json}
      {vs rs : List (String × Json)} (h : Found f v (find f.name) r)
      (hrest : FoundAll find fields vs rs) :
      FoundAll find (f :: fields) ((f.name, v) :: vs) ((f.name, r) :: rs)

theorem FoundAll.congr {find find' : String → Option Json} {fields : List (FieldForm Form)}
    {vs rs : List (String × Json)} (h : FoundAll find fields vs rs)
    (hfind : ∀ name ∈ fields.map (·.name), find' name = find name) : FoundAll find' fields vs rs := by
  induction h with
  | nil => exact .nil
  | cons h _ ih =>
      rw [← hfind _ List.mem_cons_self] at h
      exact .cons h (ih fun name hname => hfind name (List.mem_cons_of_mem _ hname))

theorem RecastMembers.foundAll {find : String → Option Json} :
    {fields : List (FieldForm Form)} → {vs js rs : List (String × Json)} →
    RecastMembers fields vs js rs → (fields.map (·.name)).Nodup →
    (∀ m ∈ js, find m.1 = some m.2) →
    (∀ name ∈ fields.map (·.name), name ∉ js.map (·.1) → find name = none) →
    FoundAll find fields vs rs
  | _, _, _, _, .nil, _, _, _ => .nil
  | _, _, _, _, .kept (f := f) h hrest, hnodup, hkept, hmissing => by
      rw [List.map_cons, List.nodup_cons] at hnodup
      refine .cons ?_ (hrest.foundAll hnodup.2 (fun m hm => hkept m (List.mem_cons_of_mem _ hm)) ?_)
      · rw [hkept _ List.mem_cons_self]
        exact .kept h
      · intro name hname hjs
        refine hmissing name (List.mem_cons_of_mem _ hname) ?_
        rw [List.map_cons, List.mem_cons, not_or]
        exact ⟨fun (heq : name = f.name) => hnodup.1 (heq ▸ hname), hjs⟩
  | _, _, _, _, .missing (f := f) h hrest, hnodup, hkept, hmissing => by
      rw [List.map_cons, List.nodup_cons] at hnodup
      refine .cons ?_ (hrest.foundAll hnodup.2 hkept fun name hname =>
        hmissing name (List.mem_cons_of_mem _ hname))
      rw [hmissing f.name List.mem_cons_self fun hjs => hnodup.1 (hrest.sublist.subset hjs)]
      exact .missing h

/-! ## The fields of a recast record -/

theorem fields?_named {names : List String} {members : List (String × Json)}
    (hnodup : ((called names members).map (·.1)).Nodup) :
    Layout.fields? names (.named (named members)) = some (called names members) := by
  have hnames : (named members).any (·.1.isNone) = false := by
    simp [named]
  have hknown : ((named members).filterMap fun (name, v) =>
      name.bind fun n => if names.contains n then some (n, v) else none) = called names members := by
    rw [named, List.filterMap_map, called, ← List.filterMap_eq_filter]
    rfl
  rw [Layout.fields?]
  simp only [hnames, Bool.false_eq_true, if_false, hknown]
  exact if_pos hnodup

/-- A reader finds in a recast record what was given for a field, and no name twice. -/
theorem Recast.exists_members {fields : List (FieldForm Form)} {vs : List (String × Json)}
    {j r : Json} (h : Recast (.record fields) (.record vs) j r)
    (hnodup : (fields.map (·.name)).Nodup) :
    ∃ members rs, j = .record members ∧ r = .record rs ∧ FoundAll (members.lookup ·) fields vs rs ∧
      ∀ names ⊆ fields.map (·.name), ((called names members).map (·.1)).Nodup := by
  generalize hvs : Json.record vs = v at h
  cases h with
  | @record _ _ js rs extra members h hextra hperm =>
      obtain rfl := Json.record_inj.1 hvs
      have hjs : (js.map (·.1)).Nodup := h.sublist.nodup hnodup
      -- Names may repeat among the unknown members; among those of the fields they do not.
      have hunique : ∀ names ⊆ fields.map (·.name), ((called names members).map (·.1)).Nodup := by
        intro names hnames
        have hcalled := perm_called hperm fun m hm hmem => hextra m hm (hnames hmem)
        exact (hcalled.map _).nodup_iff.2 ((List.filter_sublist.map _).nodup hjs)
      have hall := perm_called hperm hextra
      refine ⟨members, rs, rfl, rfl, h.foundAll hnodup ?_ ?_, hunique⟩
      · intro m hm
        have hname : m.1 ∈ fields.map (·.name) := h.sublist.subset (List.mem_map_of_mem hm)
        rw [← lookup_called _ hname]
        refine lookup_of_mem (hunique _ (List.Subset.refl _)) (hall.mem_iff.2 ?_)
        exact List.mem_filter.2 ⟨hm, List.contains_iff_mem.2 hname⟩
      · intro name hname hmissing
        rw [← lookup_called _ hname]
        refine lookup_of_not_mem fun hmem => hmissing ?_
        obtain ⟨m, hm, rfl⟩ := List.mem_map.1 hmem
        exact List.mem_map_of_mem (List.mem_filter.1 (hall.mem_iff.1 hm)).1

/-- `Recast.exists_members` for a reader that asks for all fields at once. -/
theorem Recast.exists_fields {fields : List (FieldForm Form)} {vs : List (String × Json)}
    {j r : Json} (h : Recast (.record fields) (.record vs) j r) (names : List String)
    (hnames : fields.map (·.name) = names) (hnodup : names.Nodup) :
    ∃ known rs, fields? names j = some known ∧ r = .record rs ∧
      FoundAll (known.lookup ·) fields vs rs := by
  subst hnames
  obtain ⟨members, rs, rfl, rfl, hfound, hunique⟩ := h.exists_members hnodup
  refine ⟨_, rs, fields?_named (hunique _ (List.Subset.refl _)), rfl, hfound.congr ?_⟩
  exact fun name hname => lookup_called _ hname members

/-! ## Readers that see through a recasting -/

variable {α : Type}

/-- A reader returns, whatever the encoding of a value is recast to, a value; and the encoding of that
is what the recasting stands for. -/
def Recovers (form : Form) (write : α → Json) (read : Json → Option α) (x : α) : Prop :=
  ∀ j r, Recast form (write x) j r → ∃ x', write x' = r ∧ read j = some x'

theorem Recovers.required {form : Form} {write : α → Json} {read : Json → Option α} {x : α}
    (h : Recovers form write read x) {name : String} {fields : Fields Json} {r : Json}
    (hfound : Found ⟨name, form, none⟩ (write x) (fields.lookup name) r) :
    ∃ x', write x' = r ∧ required read name fields = some x' := by
  rw [Record.required]
  generalize fields.lookup name = o at hfound ⊢
  cases hfound with
  | kept hrecast => exact h _ _ hrecast
  | missing hdefault => cases hdefault

theorem Recovers.defaulted {form : Form} {write : α → Json} {read : Json → Option α} {x d : α}
    (h : Recovers form write read x) {name : String} {fields : Fields Json} {r : Json}
    (hfound : Found ⟨name, form, some (write d)⟩ (write x) (fields.lookup name) r) :
    ∃ x', write x' = r ∧ defaulted read d name fields = some x' := by
  rw [Record.defaulted]
  generalize fields.lookup name = o at hfound ⊢
  cases hfound with
  | kept hrecast => exact h _ _ hrecast
  | missing hdefault => exact ⟨d, Option.some.inj hdefault, rfl⟩

theorem Recovers.scalar {write : α → Json} {read : Json → Option α} {x : α}
    (h : read (write x) = some x) : Recovers .scalar write read x := by
  intro j r hrecast
  cases hrecast
  exact ⟨x, rfl, h⟩

theorem Recovers.items {element : Form} {write : α → Json} {read : Json → Option α} {xs : List α}
    (h : ∀ x ∈ xs, Recovers element write read x) {js rs : List Json}
    (hitems : RecastItems element (xs.map write) js rs) :
    ∃ xs', xs'.map write = rs ∧ js.mapM read = some xs' := by
  induction xs generalizing js rs with
  | nil =>
      cases hitems
      exact ⟨[], rfl, rfl⟩
  | cons x xs ih =>
      cases hitems with
      | cons hrecast hrest =>
          obtain ⟨x', rfl, hread⟩ := h x List.mem_cons_self _ _ hrecast
          obtain ⟨xs', rfl, hreads⟩ := ih (fun y hy => h y (List.mem_cons_of_mem x hy)) hrest
          refine ⟨x' :: xs', rfl, ?_⟩
          rw [List.mapM_cons, hread, hreads]
          rfl

theorem Recovers.list {element : Form} {write : α → Json} {read : Json → Option α} {xs : List α}
    (h : ∀ x ∈ xs, Recovers element write read x) :
    Recovers (.list element) (Json.list write) (Record.list read) xs := by
  intro j r hrecast
  cases hrecast with
  | list hitems =>
      obtain ⟨xs', rfl, hread⟩ := Recovers.items h hitems
      exact ⟨xs', rfl, hread⟩

/-- What a reader owes a writer. -/
structure RoundTrips (form : Form) (write : α → Json) (read : Json → Option α) (x : α) : Prop where
  value : read (write x) = some x
  text : (Json.parse? (write x).print).bind read = some x
  /-- With members in another order, and others among them, it is the same value. -/
  rearranged : ∀ j, Recast form (write x) j (write x) → read j = some x
  /-- With members missing, it is the value that has their defaults and is the same otherwise. -/
  completed : ∀ j r, Recast form (write x) j r → ∃ x', write x' = r ∧ read j = some x'

theorem Recovers.roundTrips {form : Form} {write : α → Json} {read : Json → Option α} {x : α}
    (h : Recovers form write read x) (hfits : Fits form (write x))
    (hinj : ∀ {x'}, write x' = write x ↔ x' = x) : RoundTrips form write read x := by
  have hrearranged : ∀ j, Recast form (write x) j (write x) → read j = some x := by
    intro j hrecast
    obtain ⟨x', heq, hread⟩ := h j _ hrecast
    rwa [hinj.1 heq] at hread
  have hvalue := hrearranged _ hfits.recast
  refine ⟨hvalue, ?_, hrearranged, h⟩
  rw [Json.parse?_print hfits.printable, Option.bind_some, hvalue]

end ActionSheet.Record
