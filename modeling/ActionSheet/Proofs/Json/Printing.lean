import ActionSheet.Proofs.Json.Literal

/-!
# Printed JSON is read back

The printer writes a value without blanks, so nothing but its own marks says where a part of it
ends. That is enough: a value begins with a character that no array and no object ends with, and
what stands behind a value is nothing, a comma or an end. `Closes` is that fact about the rest of
the text, and under it every value is read off whatever it stands in front of. The induction is over
the value; a list of items or of members goes on by its own induction, one comma at a time.

What the printer cannot write it is not asked for: a string that spells no text, and a number whose
literal is no numeral. `Printable` excludes these two and nothing else.
-/

namespace ActionSheet.Json

open Text

/-- A value whose strings and names spell texts, and whose numbers are written as numbers. -/
inductive Printable : Json → Prop
  | null : Printable .null
  | bool (b : Bool) : Printable (.bool b)
  | integer (n : Int) : Printable (.integer n)
  | real {literal : List Char} (h : IsReal literal) : Printable (.real (String.ofList literal))
  | text (s : String) : Printable (.text s)
  | array {items : List Json} (h : ∀ v ∈ items, Printable v) : Printable (.array items)
  | record {members : List (String × Json)} (h : ∀ m ∈ members, Printable m.2) :
      Printable (.record members)

/-! ## Where a value begins -/

/-- A character that a value can begin with: no blank, and nothing that ends an array or an
object. -/
def Opens (c : Char) : Prop := isBlank c = false ∧ c ≠ ']' ∧ c ≠ '\x7d'

instance (c : Char) : Decidable (Opens c) :=
  inferInstanceAs (Decidable (_ ∧ _))

/-- A character that a numeral can begin with. -/
def OpensNumeral (c : Char) : Prop := isDigit c = true ∨ c = '-'

theorem OpensNumeral.ne {c d : Char} (h : OpensNumeral c) (hd : (isDigit d || d == '-') = false) :
    c ≠ d := by
  rintro rfl
  rcases h with h | rfl
  · rw [h] at hd
    cases hd
  · exact absurd hd (by decide)

theorem OpensNumeral.opens {c : Char} (h : OpensNumeral c) : Opens c := by
  refine ⟨?_, h.ne (by decide), h.ne (by decide)⟩
  simp only [isBlank, Bool.or_eq_false_iff, beq_eq_false_iff_ne]
  exact ⟨⟨⟨h.ne (by decide), h.ne (by decide)⟩, h.ne (by decide)⟩, h.ne (by decide)⟩

theorem IsDigits.exists_cons {ds : List Char} (h : IsDigits ds) :
    ∃ c s, ds = c :: s ∧ OpensNumeral c := by
  obtain ⟨c, s, rfl⟩ := List.exists_cons_of_ne_nil h.1
  exact ⟨c, s, rfl, .inl (h.2 c List.mem_cons_self)⟩

theorem exists_integerChars_cons (n : Int) : ∃ c s, integerChars n = c :: s ∧ OpensNumeral c := by
  unfold integerChars
  split
  · exact ⟨'-', _, rfl, .inr rfl⟩
  · exact (isDigits_digits n.natAbs).exists_cons

theorem IsReal.exists_cons {s : List Char} (h : IsReal s) : ∃ c t, s = c :: t ∧ OpensNumeral c := by
  obtain ⟨hsign, hwhole, -, -, -⟩ := h
  rcases hsign with rfl | rfl
  · obtain ⟨c, t, rfl, hc⟩ := hwhole.isDigits.exists_cons
    exact ⟨c, _, rfl, hc⟩
  · exact ⟨'-', _, rfl, .inr rfl⟩

theorem Printable.exists_chars_cons {v : Json} (h : Printable v) :
    ∃ c s, v.chars = c :: s ∧ Opens c := by
  cases h with
  | null => exact ⟨'n', _, rfl, by decide⟩
  | bool b =>
      cases b with
      | false => exact ⟨'f', _, rfl, by decide⟩
      | true => exact ⟨'t', _, rfl, by decide⟩
  | integer n =>
      obtain ⟨c, s, heq, hc⟩ := exists_integerChars_cons n
      exact ⟨c, s, by rw [chars, heq], hc.opens⟩
  | real hreal =>
      obtain ⟨c, s, heq, hc⟩ := hreal.exists_cons
      exact ⟨c, s, by rw [chars, String.toList_ofList, heq], hc.opens⟩
  | text s => exact ⟨'"', _, rfl, by decide⟩
  | array h => exact ⟨'[', _, by rw [chars], by decide⟩
  | record h => exact ⟨'\x7b', _, by rw [Json.record, chars], by decide⟩

/-! ## Steps of the reader -/

theorem eq_of_skipBlanks {c : Char} {r s : List Char} (hc : isBlank c = false)
    (h : skipBlanks (c :: r) = s) : c :: r = s := by
  rwa [skipBlanks_cons hc] at h

theorem left_value_string (r : List Char) :
    left (value ('"' :: r)) =
      (left (stringBody (some []) r)).map fun p => (.string p.1, p.2) := by
  rw [value]
  exact left_map _ _ (fun q => ⟨q.1, by have := q.2; simp; omega⟩) fun _ => rfl

theorem left_value_array_nil (r : List Char) :
    left (value ('[' :: ']' :: r)) = some (.array [], r) := by
  rw [value]
  split
  · next q h =>
      cases eq_of_skipBlanks (by decide) h
      rfl
  · next h =>
      cases eq_of_skipBlanks (by decide) h
  · next c q hc h =>
      cases eq_of_skipBlanks (by decide) h
      exact (hc rfl).elim

theorem left_value_array {c : Char} (hc : Opens c) (r : List Char) :
    left (value ('[' :: c :: r)) = (left (items (c :: r))).map fun p => (.array p.1, p.2) := by
  rw [value]
  split
  · next q h =>
      cases eq_of_skipBlanks hc.1 h
      exact absurd rfl hc.2.1
  · next h =>
      cases eq_of_skipBlanks hc.1 h
  · next c' q hc' h =>
      cases eq_of_skipBlanks hc.1 h
      exact left_map _ _ (fun t => ⟨t.1, by have := t.2; simp at *; omega⟩) fun _ => rfl

theorem left_items_last {s r : List Char} {v : Json} (hv : left (value s) = some (v, ']' :: r)) :
    left (items s) = some ([v], r) := by
  obtain ⟨⟨v', ⟨q, hq⟩⟩, hvalue, heq⟩ := Option.map_eq_some_iff.1 hv
  cases heq
  rw [items, hvalue]
  simp only
  split
  · next q h =>
      cases eq_of_skipBlanks (by decide) h
      rfl
  · next q h =>
      cases eq_of_skipBlanks (by decide) h
  · next h₁ h₂ => exact absurd (skipBlanks_cons (by decide) r) (h₁ r)

theorem left_items_cons {s r : List Char} {c : Char} {v : Json} (hc : Opens c)
    (hv : left (value s) = some (v, ',' :: c :: r)) :
    left (items s) = (left (items (c :: r))).map fun p => (v :: p.1, p.2) := by
  obtain ⟨⟨v', ⟨q, hq⟩⟩, hvalue, heq⟩ := Option.map_eq_some_iff.1 hv
  cases heq
  rw [items, hvalue]
  simp only
  split
  · next q h =>
      cases eq_of_skipBlanks (by decide) h
  · next q h =>
      cases eq_of_skipBlanks (by decide) h
      have hlength : ∀ t : Rest (skipBlanks (c :: r)), t.1.length < s.length := by
        intro t
        have ht := t.2
        have hskip := length_skipBlanks_le (c :: r)
        simp only [List.length_cons] at hq hskip
        omega
      refine (left_map _ (_ :: ·) (fun t => (⟨t.1, hlength t⟩ : Rest s)) fun _ => rfl).trans ?_
      rw [skipBlanks_cons hc.1]
  · next h₁ h₂ => exact absurd (skipBlanks_cons (by decide) _) (h₂ _)

theorem left_value_object_nil (r : List Char) :
    left (value ('\x7b' :: '\x7d' :: r)) = some (.object [], r) := by
  rw [value]
  split
  · next q h =>
      cases eq_of_skipBlanks (by decide) h
      rfl
  · next h =>
      cases eq_of_skipBlanks (by decide) h
  · next c q hc h =>
      cases eq_of_skipBlanks (by decide) h
      exact (hc rfl).elim

theorem left_value_object {c : Char} (hc : Opens c) (r : List Char) :
    left (value ('\x7b' :: c :: r)) =
      (left (members (c :: r))).map fun p => (.object p.1, p.2) := by
  rw [value]
  split
  · next q h =>
      cases eq_of_skipBlanks hc.1 h
      exact absurd rfl hc.2.2
  · next h =>
      cases eq_of_skipBlanks hc.1 h
  · next c' q hc' h =>
      cases eq_of_skipBlanks hc.1 h
      exact left_map _ _ (fun t => ⟨t.1, by have := t.2; simp at *; omega⟩) fun _ => rfl

theorem left_members_last {s r q : List Char} {name : Option String} {c : Char} {v : Json}
    (hname : left (stringBody (some []) s) = some (name, ':' :: c :: r)) (hc : Opens c)
    (hv : left (value (c :: r)) = some (v, '\x7d' :: q)) :
    left (members ('"' :: s)) = some ([(name, v)], q) := by
  rw [← skipBlanks_cons hc.1] at hv
  obtain ⟨⟨name', ⟨t, ht⟩⟩, hbody, heq⟩ := Option.map_eq_some_iff.1 hname
  cases heq
  obtain ⟨⟨v', ⟨t', ht'⟩⟩, hvalue, heq⟩ := Option.map_eq_some_iff.1 hv
  cases heq
  rw [members, hbody]
  simp only
  split
  · next u h =>
      cases eq_of_skipBlanks (by decide) h
      rw [hvalue]
      simp only
      split
      · next u h =>
          cases eq_of_skipBlanks (by decide) h
          rfl
      · next u h =>
          cases eq_of_skipBlanks (by decide) h
      · next h _ => exact absurd (skipBlanks_cons (by decide) _) (h _)
  · next h => exact absurd (skipBlanks_cons (by decide) _) (h _)

theorem left_members_cons {s r q : List Char} {name : Option String} {c c' : Char} {v : Json}
    (hname : left (stringBody (some []) s) = some (name, ':' :: c :: r)) (hc : Opens c)
    (hv : left (value (c :: r)) = some (v, ',' :: c' :: q)) (hc' : Opens c') :
    left (members ('"' :: s)) =
      (left (members (c' :: q))).map fun p => ((name, v) :: p.1, p.2) := by
  rw [← skipBlanks_cons hc.1] at hv
  obtain ⟨⟨name', ⟨t, ht⟩⟩, hbody, heq⟩ := Option.map_eq_some_iff.1 hname
  cases heq
  obtain ⟨⟨v', ⟨t', ht'⟩⟩, hvalue, heq⟩ := Option.map_eq_some_iff.1 hv
  cases heq
  rw [members, hbody]
  simp only
  split
  · next u h =>
      cases eq_of_skipBlanks (by decide) h
      rw [hvalue]
      simp only
      split
      · next u h =>
          cases eq_of_skipBlanks (by decide) h
      · next u h =>
          cases eq_of_skipBlanks (by decide) h
          have hlength : ∀ w : Rest (skipBlanks (c' :: q)), w.1.length < ('"' :: s).length := by
            intro w
            have hw := w.2
            have hskip := length_skipBlanks_le (c' :: q)
            have hskip' := length_skipBlanks_le (c :: r)
            simp only [List.length_cons] at ht ht' hskip hskip' ⊢
            omega
          refine (left_map _ (_ :: ·) (fun w => (⟨w.1, hlength w⟩ : Rest ('"' :: s)))
            fun _ => rfl).trans ?_
          rw [skipBlanks_cons hc'.1]
      · next _ h => exact absurd (skipBlanks_cons (by decide) _) (h _)
  · next h => exact absurd (skipBlanks_cons (by decide) _) (h _)

/-! ## Words and numbers -/

theorem left_atom? (s : List Char) : left (atom? s) = (keyword? s).or (number? s) := by
  unfold atom?
  split
  · next h => exact (congrArg (Option.or · (number? s)) h).symm
  · next h =>
      rw [h, Option.none_or]
      split
      · next h' => exact h'.symm
      · next h' => exact h'.symm

theorem left_value_atom {c : Char} (hquote : c ≠ '"') (hbracket : c ≠ '[') (hbrace : c ≠ '\x7b')
    (r : List Char) : left (value (c :: r)) = (keyword? (c :: r)).or (number? (c :: r)) := by
  rw [value]
  · exact left_atom? _
  · exact fun _ h => hquote (List.cons.inj h).1
  · exact fun _ h => hbracket (List.cons.inj h).1
  · exact fun _ h => hbrace (List.cons.inj h).1

theorem OpensNumeral.keyword?_eq {c : Char} (h : OpensNumeral c) (r : List Char) :
    keyword? (c :: r) = none := by
  unfold keyword?
  split
  · next heq => exact absurd (List.cons.inj heq).1 (h.ne (by decide))
  · next heq => exact absurd (List.cons.inj heq).1 (h.ne (by decide))
  · next heq => exact absurd (List.cons.inj heq).1 (h.ne (by decide))
  · rfl

theorem left_value_numeral {s r : List Char} {v : Json} (hs : ∃ c t, s = c :: t ∧ OpensNumeral c)
    (h : number? (s ++ r) = some (v, r)) : left (value (s ++ r)) = some (v, r) := by
  obtain ⟨c, t, rfl, hc⟩ := hs
  rw [List.cons_append] at h ⊢
  rw [left_value_atom (hc.ne (by decide)) (hc.ne (by decide)) (hc.ne (by decide)),
    hc.keyword?_eq, h]
  rfl

/-! ## Values -/

/-- A value is read off whatever it stands in front of. -/
def ReadsBack (v : Json) : Prop :=
  ∀ {r : List Char}, Closes r → left (value (v.chars ++ r)) = some (v, r)

theorem closes_cons {c : Char} (h : c = ',' ∨ c = ']' ∨ c = '\x7d') (r : List Char) :
    Closes (c :: r) := by
  intro d hd
  cases hd
  exact h

theorem left_stringBody_text (s : String) (r : List Char) :
    left (stringBody (some []) (s.toList.flatMap escapeChar ++ '"' :: r)) = some (some s, r) := by
  rw [left_stringBody, List.reverse_nil, List.nil_append, String.ofList_toList]

theorem readsBack_text (s : String) : ReadsBack (.text s) := by
  intro r _
  rw [text, chars, literalChars, quoteChars, Option.getD_some, List.cons_append, List.append_assoc,
    List.singleton_append, left_value_string, left_stringBody_text, Option.map_some]

theorem exists_itemChars_eq (v : Json) (vs : List Json) :
    ∃ s, itemChars (v :: vs) = v.chars ++ s := by
  cases vs with
  | nil => exact ⟨[], (List.append_nil _).symm⟩
  | cons w vs => exact ⟨_, itemChars.eq_3 v (w :: vs) (List.cons_ne_nil w vs)⟩

theorem left_items_itemChars {v : Json} {vs : List Json} (hv : Printable v ∧ ReadsBack v)
    (hvs : ∀ w ∈ vs, Printable w ∧ ReadsBack w) (r : List Char) :
    left (items (itemChars (v :: vs) ++ ']' :: r)) = some (v :: vs, r) := by
  induction vs generalizing v with
  | nil => exact left_items_last (hv.2 (closes_cons (.inr (.inl rfl)) r))
  | cons w vs ih =>
      have hw := hvs w List.mem_cons_self
      obtain ⟨c, s, hc, hopens⟩ := hw.1.exists_chars_cons
      obtain ⟨t, ht⟩ := exists_itemChars_eq w vs
      have hnext : itemChars (w :: vs) ++ ']' :: r = c :: (s ++ t ++ ']' :: r) := by
        rw [ht, hc]
        rfl
      have hread := hv.2 (closes_cons (.inl rfl) (itemChars (w :: vs) ++ ']' :: r))
      rw [itemChars, List.append_assoc, List.cons_append]
      · rw [hnext] at hread ⊢
        rw [left_items_cons hopens hread, ← hnext,
          ih hw fun w' hw' => hvs w' (List.mem_cons_of_mem w hw')]
        rfl
      · exact List.cons_ne_nil _ _

/-- Members as an object holds them. -/
def named (ms : List (String × Json)) : List (Option String × Json) :=
  ms.map fun (name, v) => (some name, v)

theorem memberChars_singleton (m : String × Json) (r : List Char) :
    memberChars (named [m]) ++ r =
      '"' :: (m.1.toList.flatMap escapeChar ++ '"' :: ':' :: (m.2.chars ++ r)) := by
  show '"' :: (m.1.toList.flatMap escapeChar ++ ['"']) ++ ':' :: m.2.chars ++ r = _
  simp only [List.cons_append, List.append_assoc, List.nil_append]

theorem memberChars_cons (m m' : String × Json) (ms : List (String × Json)) (r : List Char) :
    memberChars (named (m :: m' :: ms)) ++ r =
      '"' :: (m.1.toList.flatMap escapeChar ++ '"' :: ':' ::
        (m.2.chars ++ ',' :: (memberChars (named (m' :: ms)) ++ r))) := by
  show '"' :: (m.1.toList.flatMap escapeChar ++ ['"']) ++
    ':' :: (m.2.chars ++ ',' :: memberChars (named (m' :: ms))) ++ r = _
  simp only [List.cons_append, List.append_assoc, List.nil_append]

theorem exists_memberChars_eq (m : String × Json) (ms : List (String × Json)) (r : List Char) :
    ∃ s, memberChars (named (m :: ms)) ++ r = '"' :: s := by
  cases ms with
  | nil => exact ⟨_, memberChars_singleton m r⟩
  | cons m' ms => exact ⟨_, memberChars_cons m m' ms r⟩

theorem left_members_memberChars {m : String × Json} {ms : List (String × Json)}
    (hm : Printable m.2 ∧ ReadsBack m.2) (hms : ∀ m' ∈ ms, Printable m'.2 ∧ ReadsBack m'.2)
    (r : List Char) :
    left (members (memberChars (named (m :: ms)) ++ '\x7d' :: r)) = some (named (m :: ms), r) := by
  induction ms generalizing m with
  | nil =>
      obtain ⟨c, s, hc, hopens⟩ := hm.1.exists_chars_cons
      have hread := hm.2 (closes_cons (.inr (.inr rfl)) r)
      rw [memberChars_singleton]
      rw [hc] at hread ⊢
      exact left_members_last (left_stringBody_text _ _) hopens hread
  | cons m' ms ih =>
      have hm' := hms m' List.mem_cons_self
      obtain ⟨c, s, hc, hopens⟩ := hm.1.exists_chars_cons
      obtain ⟨t, ht⟩ := exists_memberChars_eq m' ms ('\x7d' :: r)
      have hread := hm.2 (closes_cons (.inl rfl) (memberChars (named (m' :: ms)) ++ '\x7d' :: r))
      have hrest := ih hm' fun m'' h => hms m'' (List.mem_cons_of_mem m' h)
      rw [memberChars_cons]
      rw [ht] at hread hrest ⊢
      rw [hc, List.cons_append] at hread ⊢
      rw [left_members_cons (left_stringBody_text _ _) hopens hread (by decide), hrest]
      rfl

theorem chars_array_append (vs : List Json) (r : List Char) :
    (Json.array vs).chars ++ r = '[' :: (itemChars vs ++ ']' :: r) := by
  rw [chars, List.cons_append, List.append_assoc, List.singleton_append]

theorem chars_record_append (ms : List (String × Json)) (r : List Char) :
    (Json.record ms).chars ++ r = '\x7b' :: (memberChars (named ms) ++ '\x7d' :: r) := by
  rw [Json.record, chars, List.cons_append, List.append_assoc]
  rfl

theorem Printable.readsBack {v : Json} (h : Printable v) : ReadsBack v := by
  induction h with
  | null =>
      intro r _
      exact left_value_atom (by decide) (by decide) (by decide) _
  | bool b =>
      intro r _
      cases b with
      | false => exact left_value_atom (by decide) (by decide) (by decide) _
      | true => exact left_value_atom (by decide) (by decide) (by decide) _
  | integer n =>
      intro r hr
      rw [chars]
      exact left_value_numeral (exists_integerChars_cons n) (number?_integerChars n hr)
  | real hreal =>
      intro r hr
      rw [chars, String.toList_ofList]
      exact left_value_numeral hreal.exists_cons (number?_real hreal hr)
  | text s => exact readsBack_text s
  | @array items h ih =>
      intro r _
      cases items with
      | nil => exact left_value_array_nil r
      | cons v vs =>
          obtain ⟨c, s, hc, hopens⟩ := (h v List.mem_cons_self).exists_chars_cons
          obtain ⟨t, ht⟩ := exists_itemChars_eq v vs
          have hitems := left_items_itemChars ⟨h v List.mem_cons_self, ih v List.mem_cons_self⟩
            (fun w hw => ⟨h w (List.mem_cons_of_mem v hw), ih w (List.mem_cons_of_mem v hw)⟩) r
          rw [chars_array_append]
          rw [ht, hc, List.cons_append, List.cons_append] at hitems ⊢
          rw [left_value_array hopens, hitems]
          rfl
  | @record ms h ih =>
      intro r _
      cases ms with
      | nil => exact left_value_object_nil r
      | cons m ms =>
          obtain ⟨t, ht⟩ := exists_memberChars_eq m ms ('\x7d' :: r)
          have hmembers := left_members_memberChars ⟨h m List.mem_cons_self, ih m List.mem_cons_self⟩
            (fun w hw => ⟨h w (List.mem_cons_of_mem m hw), ih w (List.mem_cons_of_mem m hw)⟩) r
          rw [chars_record_append]
          rw [ht] at hmembers ⊢
          rw [left_value_object (by decide), hmembers]
          rfl

theorem parse?_of_left {s : String} {v : Json}
    (h : left (value (skipBlanks s.toList)) = some (v, [])) : parse? s = some v := by
  obtain ⟨⟨v', ⟨q, hq⟩⟩, hvalue, heq⟩ := Option.map_eq_some_iff.1 h
  cases heq
  rw [parse?, hvalue]
  rfl

/-- What is printed is read as what it was printed from. -/
theorem parse?_print {v : Json} (h : Printable v) : parse? v.print = some v := by
  obtain ⟨c, s, hc, hopens⟩ := h.exists_chars_cons
  have hread := h.readsBack (r := []) fun _ hnone => nomatch hnone
  refine parse?_of_left ?_
  rw [print, String.toList_ofList]
  rw [List.append_nil, hc] at hread
  rw [hc, skipBlanks_cons hopens.1, hread]

end ActionSheet.Json
