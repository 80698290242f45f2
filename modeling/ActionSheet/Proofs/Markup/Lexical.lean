import ActionSheet.Proofs.Markup.Run

/-!
# Namespaces by lexical scope

The reader resolves a name in a list of bindings that it pushes at a start tag and restores at an
end tag. What the list stands for can be said without it: the namespace of an element is looked up
in its own tag and then in the tags around it, outward, and the first of these tags that declares
the prefix decides. `lexicalNamespace` says it that way, over the tags as they are written.

`uri?_enter` is the step from one account to the other: entering a tag changes what a prefix stands
for exactly as the last declaration of that tag says. The prefix `xml` needs a word of its own,
because declaring it adds no binding; but it can only be declared to be what it is already.
`marksOf_eq_inScope` carries the step along a whole text.
-/

namespace ActionSheet.Markup

/-- A tag as it is written, without its angle brackets. -/
abbrev Tag := List Char

/-- Whether an attribute declares the namespace of a prefix, or of names without one. -/
def WrittenAttribute.declares (pre : Option (List Char)) (a : WrittenAttribute) : Bool :=
  match pre with
  | none => a.key = "xmlns".toList || a.key = "xmlns:".toList
  | some p => a.key = "xmlns:".toList ++ p

/-- The value that the last of some declarations of a prefix gives it. -/
def lastDeclared? (pre : Option (List Char)) (as : List WrittenAttribute) : Option (List Char) :=
  (as.filter (·.declares pre)).getLast?.map (·.value)

/-- What a tag declares a prefix to stand for, if it does. -/
def declared? (pre : Option (List Char)) (tag : Tag) : Option (List Char) :=
  lastDeclared? pre (writtenAttributes false tag).1

/-- What a prefix stands for where nothing is declared. -/
def prebound? : Option (List Char) → Option (List Char)
  | some p =>
    if p = "xml".toList then some xmlNamespace
    else if p = "xmlns".toList then some xmlnsNamespace
    else none
  | none => none

/-- The namespace of an element by its tag and the tags around it, the innermost first: the
innermost of these tags that declares the prefix decides, and the empty value and the empty prefix
stand for none. -/
def lexicalNamespace (around : List Tag) (tag : Tag) : Option String :=
  let pre := (Name.ofChars (tagName tag)).pre
  if pre = some [] then none
  else
    ((((tag :: around).findSome? (declared? pre)).or (prebound? pre)).filter (!·.isEmpty)).map
      String.ofList

/-! ## One tag -/

namespace Scope

/-- What a prefix is bound to, the empty text included. -/
def uri? (scope : Scope) (pre : Option (List Char)) : Option (List Char) :=
  (scope.find? (·.pre = pre)).map (·.uri)

theorem resolve_eq (scope : Scope) (pre : Option (List Char)) :
    scope.resolve pre = (scope.uri? pre).filter (!·.isEmpty) := by
  rw [resolve, uri?]
  cases scope.find? (·.pre = pre) with
  | none => rfl
  | some b =>
      rw [Option.bind_some, Option.map_some, Option.filter_some]
      cases b.uri.isEmpty <;> rfl

theorem uri?_cons (b : Binding) (scope : Scope) (pre : Option (List Char)) :
    Scope.uri? (b :: scope) pre = if b.pre = pre then some b.uri else scope.uri? pre := by
  rw [uri?, List.find?_cons]
  by_cases h : b.pre = pre
  · rw [if_pos h, decide_eq_true h]
    rfl
  · rw [if_neg h, decide_eq_false h]
    rfl

/-- What no declaration changes: the prefix `xml` stands for its own namespace, and the empty
prefix for none. -/
def Settled (scope : Scope) : Prop :=
  scope.uri? (some "xml".toList) = some xmlNamespace ∧ scope.uri? (some []) = none

theorem declareAll_cons (scope : Scope) (a : WrittenAttribute) (as : List WrittenAttribute) :
    scope.declareAll (a :: as) =
      (a.binding? >>= fun b => declareAll (b.toList ++ scope) as) := by
  rw [declareAll]
  refine congrArg _ (funext fun b => ?_)
  cases b <;> rfl

end Scope

theorem default_key_ne (p : List Char) : "xmlns".toList ≠ "xmlns:".toList ++ p := by
  intro h
  have hlen := congrArg List.length h
  rw [List.length_append] at hlen
  exact absurd hlen (show 5 ≠ 6 + p.length by omega)

/-- A key of the form `xmlns:p` declares the prefix `p`, or none if that is empty. -/
theorem declares_of_key {a : WrittenAttribute} {p : List Char} (h : a.key = "xmlns:".toList ++ p)
    {pre : Option (List Char)} (hp : pre ≠ some []) :
    a.declares pre = decide (pre = if p.isEmpty then none else some p) := by
  cases p with
  | nil =>
      cases pre with
      | none => simp [WrittenAttribute.declares, h]
      | some q =>
          have hq : q ≠ [] := fun he => hp (congrArg some he)
          simp [WrittenAttribute.declares, h, hq]
  | cons c p =>
      cases pre with
      | none => simp [WrittenAttribute.declares, h]
      | some q => simp [WrittenAttribute.declares, h, eq_comm]

/-- The three things an attribute can be to the scope: a declaration that adds its binding, the one
of `xml` that adds none and says nothing new, or no declaration. -/
theorem binding?_eq_ok {a : WrittenAttribute} {b : Option Binding} (h : a.binding? = .ok b) :
    (∃ p, b = some ⟨p, a.value⟩ ∧ p ≠ some "xml".toList ∧ p ≠ some [] ∧
        ∀ pre, pre ≠ some [] → a.declares pre = decide (pre = p)) ∨
      (b = none ∧ a.value = xmlNamespace ∧
        ∀ pre, pre ≠ some [] → a.declares pre = decide (pre = some "xml".toList)) ∨
      (b = none ∧ ∀ pre, a.declares pre = false) := by
  unfold WrittenAttribute.binding? at h
  split at h
  · next hk =>
      cases h
      refine .inl ⟨none, rfl, nofun, nofun, fun pre hp => ?_⟩
      cases pre with
      | none => simp [WrittenAttribute.declares, hk]
      | some p =>
          rw [WrittenAttribute.declares, hk, decide_eq_false (default_key_ne p)]
          rfl
  · next hk =>
      split at h
      · next hd =>
          obtain ⟨p, hp⟩ := List.isPrefixOf_iff_prefix.1 hd
          have hdrop : a.key.drop 6 = p := by
            rw [← hp]
            rfl
          rw [hdrop] at h
          dsimp only at h
          split at h
          · next hx =>
              split at h
              · next hv =>
                  cases h
                  refine .inr (.inl ⟨rfl, hv, fun pre hpre => ?_⟩)
                  rw [declares_of_key hp.symm hpre, hx]
                  rfl
              · cases h
          · next hx =>
              split at h
              · cases h
              · cases h
                refine .inl ⟨_, rfl, ?_, ?_, fun pre hpre => declares_of_key hp.symm hpre⟩
                · intro he
                  split at he
                  · cases he
                  · exact hx (Option.some.inj he)
                · intro he
                  split at he
                  · cases he
                  · next hne => exact hne (List.isEmpty_iff.2 (Option.some.inj he))
      · next hd =>
          cases h
          refine .inr (.inr ⟨rfl, fun pre => ?_⟩)
          have hno : ∀ p, a.key ≠ "xmlns:".toList ++ p := by
            rintro p hp
            exact hd (List.isPrefixOf_iff_prefix.2 ⟨p, hp.symm⟩)
          cases pre with
          | none =>
              have hn := hno []
              rw [List.append_nil] at hn
              rw [WrittenAttribute.declares, decide_eq_false hk, decide_eq_false hn]
              rfl
          | some p => exact decide_eq_false (hno p)

namespace Scope

/-- An attribute changes what a prefix stands for as its declaration says, and otherwise not. -/
theorem uri?_declare {scope : Scope} {a : WrittenAttribute} {b : Option Binding}
    (hb : a.binding? = .ok b) (hset : scope.Settled) {pre : Option (List Char)}
    (hp : pre ≠ some []) :
    uri? (b.toList ++ scope) pre = if a.declares pre then some a.value else scope.uri? pre := by
  rcases binding?_eq_ok hb with ⟨p, rfl, -, -, hd⟩ | ⟨rfl, hv, hd⟩ | ⟨rfl, hd⟩
  · rw [Option.toList_some, List.singleton_append, uri?_cons, hd pre hp]
    by_cases he : pre = p
    · rw [he, if_pos rfl, decide_eq_true rfl, if_pos rfl]
    · rw [if_neg (Ne.symm he), decide_eq_false he, if_neg Bool.false_ne_true]
  · rw [Option.toList_none, List.nil_append, hd pre hp, hv]
    by_cases he : pre = some "xml".toList
    · rw [he, decide_eq_true rfl, if_pos rfl]
      exact hset.1
    · rw [decide_eq_false he, if_neg Bool.false_ne_true]
  · rw [Option.toList_none, List.nil_append, hd pre, if_neg Bool.false_ne_true]

theorem settled_declare {scope : Scope} {a : WrittenAttribute} {b : Option Binding}
    (hb : a.binding? = .ok b) (hset : scope.Settled) : Settled (b.toList ++ scope) := by
  rcases binding?_eq_ok hb with ⟨p, rfl, hx, he, -⟩ | ⟨rfl, -, -⟩ | ⟨rfl, -⟩
  · rw [Settled, Option.toList_some, List.singleton_append, uri?_cons, uri?_cons, if_neg hx,
      if_neg he]
    exact hset
  · exact hset
  · exact hset

theorem declareAll_spec {as : List WrittenAttribute} : ∀ {scope inner : Scope},
    scope.declareAll as = .ok inner → scope.Settled →
    inner.Settled ∧ ∀ pre, pre ≠ some [] →
      inner.uri? pre = (lastDeclared? pre as).or (scope.uri? pre) := by
  induction as with
  | nil =>
      intro scope inner h hset
      cases h
      exact ⟨hset, fun _ _ => rfl⟩
  | cons a as ih =>
      intro scope inner h hset
      rw [declareAll_cons, bind_eq_ok] at h
      obtain ⟨b, hb, hrest⟩ := h
      obtain ⟨hinner, huri⟩ := ih hrest (settled_declare hb hset)
      refine ⟨hinner, fun pre hp => ?_⟩
      rw [huri pre hp, uri?_declare hb hset hp, lastDeclared?, lastDeclared?, List.filter_cons]
      split
      · -- The declarations after this one come first, and this one before the scope.
        rw [List.getLast?_cons]
        cases (as.filter (·.declares pre)).getLast? <;> rfl
      · rfl

theorem uri?_enter {scope inner : Scope} {tag : Tag} (h : scope.enter tag = .ok inner)
    (hset : scope.Settled) {pre : Option (List Char)} (hp : pre ≠ some []) :
    inner.uri? pre = (declared? pre tag).or (scope.uri? pre) :=
  (declareAll_spec h hset).2 pre hp

theorem uri?_outermost {pre : Option (List Char)} : outermost.uri? pre = prebound? pre := by
  rw [outermost, uri?_cons, uri?_cons]
  cases pre with
  | none => rfl
  | some p =>
      rw [prebound?]
      by_cases hx : p = "xml".toList
      · rw [hx]
        rfl
      · rw [if_neg hx]
        by_cases hn : p = "xmlns".toList
        · rw [hn]
          rfl
        · rw [if_neg hn, if_neg (fun he => hn (Option.some.inj he).symm),
            if_neg (fun he => hx (Option.some.inj he).symm)]
          rfl

end Scope

/-! ## A whole text -/

/-- The reader stands inside some tags, the innermost first. -/
inductive Reader.Inside : List Tag → Reader → Prop
  | outermost : Inside [] Reader.initial
  | inside {around : List Tag} {r : Reader} {tag : Tag} {scope : Scope} :
      Inside around r → r.scope.enter tag = .ok scope →
      Inside (tag :: around) ⟨scope, ⟨tagName tag, r.scope⟩ :: r.opened⟩

theorem Reader.Inside.scope_spec {around : List Tag} {r : Reader} (h : Reader.Inside around r) :
    r.scope.Settled ∧ ∀ pre, pre ≠ some [] →
      r.scope.uri? pre = (around.findSome? (declared? pre)).or (prebound? pre) := by
  induction h with
  | outermost => exact ⟨⟨rfl, rfl⟩, fun pre _ => Scope.uri?_outermost⟩
  | @inside around r tag scope _ henter ih =>
      obtain ⟨hset, huri⟩ := ih
      refine ⟨(Scope.declareAll_spec henter hset).1, fun pre hp => ?_⟩
      rw [Scope.uri?_enter henter hset hp, huri pre hp, List.findSome?_cons]
      cases declared? pre tag <;> rfl

/-- The namespace that the reader gives to a tag is the one of its lexical scope. -/
theorem Reader.Inside.namespaceOf_eq {around : List Tag} {r : Reader} {tag : Tag} {scope : Scope}
    (h : Reader.Inside around r) (henter : r.scope.enter tag = .ok scope) :
    Reader.namespaceOf scope tag = lexicalNamespace around tag := by
  obtain ⟨hset, huri⟩ := (Reader.Inside.inside h henter).scope_spec
  rw [Reader.namespaceOf, lexicalNamespace, Scope.resolve_eq]
  by_cases hp : (Name.ofChars (tagName tag)).pre = some []
  · rw [hp, if_pos rfl, hset.2]
    rfl
  · rw [if_neg hp, huri _ hp]

/-- The marks of a piece, by tags; an empty tag opens and closes. -/
def Token.marks : Token → List (Mark Tag)
  | .opening tag => [.opened tag]
  | .empty tag => [.opened tag, .closed]
  | .closing _ => [.closed]
  | .text _ | .cdata | .comment | .instruction | .doctype => []

def tagMarks (tokens : List Token) : List (Mark Tag) :=
  tokens.flatMap Token.marks

/-- What a tag says of its element inside the tags around it. -/
def Label.inScope (around : List Tag) (tag : Tag) : Label :=
  .ofTag (lexicalNamespace around tag) tag

/-- Marks with what each tag says of its element, inside the tags that are open around them. -/
def inScope : List Tag → List (Mark Tag) → List (Mark Label)
  | _, [] => []
  | around, .opened tag :: ms => .opened (.inScope around tag) :: inScope (tag :: around) ms
  | around, .closed :: ms => .closed :: inScope around.tail ms

/-- Where the reader finds nothing wrong, it says of each tag what its lexical scope says. -/
theorem marksOf_eq_inScope {trail : Trail Token} : ∀ {r : Reader} {around : List Tag}
    {events : List Event}, Reader.Inside around r →
    (trail.transform Reader.step r).items? = some events →
    ∃ tokens, trail.items? = some tokens ∧ marksOf events = inScope around (tagMarks tokens) := by
  induction trail with
  | done =>
      intro r around events _ h
      cases h
      exact ⟨[], rfl, rfl⟩
  | fault position cause =>
      intro r around events _ h
      cases h
  | item t position rest ih =>
      intro r around events hin h
      rw [Trail.transform] at h
      cases hs : r.step t with
      | error cause =>
          rw [hs] at h
          cases h
      | ok p =>
          obtain ⟨e, r'⟩ := p
          rw [hs] at h
          obtain ⟨more, hmore, rfl⟩ := Option.map_eq_some_iff.1 h
          have hpass : t.marks = [] → e.marks = [] → r' = r →
              ∃ tokens, (Trail.item t position rest).items? = some tokens ∧
                marksOf (e :: more) = inScope around (tagMarks tokens) := by
            rintro ht he rfl
            obtain ⟨tokens, htokens, heq⟩ := ih hin hmore
            refine ⟨t :: tokens, by rw [Trail.items?, htokens]; rfl, ?_⟩
            rw [marksOf, List.flatMap_cons, he, tagMarks, List.flatMap_cons, ht]
            exact heq
          cases t with
          | text | cdata | comment | instruction | doctype =>
              cases hs
              exact hpass rfl rfl rfl
          | opening tag =>
              obtain ⟨scope, henter, hok⟩ := bind_eq_ok.1 hs
              cases hok
              obtain ⟨tokens, htokens, heq⟩ := ih (.inside hin henter) hmore
              refine ⟨.opening tag :: tokens, by rw [Trail.items?, htokens]; rfl, ?_⟩
              rw [hin.namespaceOf_eq henter]
              exact congrArg _ heq
          | empty tag =>
              obtain ⟨scope, henter, hok⟩ := bind_eq_ok.1 hs
              cases hok
              obtain ⟨tokens, htokens, heq⟩ := ih hin hmore
              refine ⟨.empty tag :: tokens, by rw [Trail.items?, htokens]; rfl, ?_⟩
              rw [hin.namespaceOf_eq henter]
              exact congrArg (fun ms => _ :: _ :: ms) heq
          | closing name =>
              cases hin with
              | outermost => cases hs
              | @inside around r tag scope hin henter =>
                  rw [Reader.step] at hs
                  split at hs
                  · cases hs
                  · next hopened =>
                      cases hopened
                      split at hs
                      · cases hs
                        obtain ⟨tokens, htokens, heq⟩ := ih hin hmore
                        refine ⟨.closing name :: tokens, by rw [Trail.items?, htokens]; rfl, ?_⟩
                        exact congrArg _ heq
                      · cases hs

end ActionSheet.Markup
