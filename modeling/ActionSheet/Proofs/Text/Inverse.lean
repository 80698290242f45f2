import ActionSheet.Text.Decimal
import ActionSheet.Text.Escape

/-!
# Writing that can be undone

Two things are written into the sheet in a form of their own: texts with their markup characters as
entities, and numbers by their digits. Both can be read back, so neither text nor number is lost.

The escape is three passes over the whole text, and later passes run over what earlier ones have
written. `escapeChars_eq_flatMap` says that this comes to one pass, a character at a time, and
everything else is said about that pass: which characters it leaves, where it puts ampersands, and
how it is undone.
-/

namespace ActionSheet.Text

/-! ## Entities -/

theorem escapeChars_append (s t : List Char) :
    escapeChars (s ++ t) = escapeChars s ++ escapeChars t := by
  simp only [escapeChars, replaceChar, List.flatMap_append]

theorem replaceChar_of_ne {c d : Char} {into : List Char} (h : c ≠ d) :
    replaceChar d into [c] = [c] := by
  rw [replaceChar, List.flatMap_singleton, if_neg h]

theorem escapeChars_singleton (c : Char) : escapeChars [c] = entity c := by
  unfold entity
  split
  · rfl
  · rfl
  · rfl
  · next hamp hlt hgt =>
      rw [escapeChars, replaceChar_of_ne hamp, replaceChar_of_ne hlt, replaceChar_of_ne hgt]

theorem escapeChars_cons (c : Char) (s : List Char) :
    escapeChars (c :: s) = entity c ++ escapeChars s := by
  rw [← List.singleton_append, escapeChars_append, escapeChars_singleton]

/-- The three passes replace each character on its own. -/
theorem escapeChars_eq_flatMap (s : List Char) : escapeChars s = s.flatMap entity := by
  induction s with
  | nil => rfl
  | cons c s ih => rw [escapeChars_cons, ih, List.flatMap_cons]

/-- A text with its entities replaced once, from left to right. -/
def unescapeChars : List Char → List Char
  | '&' :: 'a' :: 'm' :: 'p' :: ';' :: s => '&' :: unescapeChars s
  | '&' :: 'l' :: 't' :: ';' :: s => '<' :: unescapeChars s
  | '&' :: 'g' :: 't' :: ';' :: s => '>' :: unescapeChars s
  | c :: s => c :: unescapeChars s
  | [] => []

theorem unescapeChars_cons {c : Char} (h : c ≠ '&') (s : List Char) :
    unescapeChars (c :: s) = c :: unescapeChars s := by
  rw [unescapeChars]
  all_goals
    rintro r hc
    exact fun _ => h hc

theorem unescapeChars_entity (c : Char) (s : List Char) :
    unescapeChars (entity c ++ s) = c :: unescapeChars s := by
  unfold entity
  split
  · rfl
  · rfl
  · rfl
  · next hamp _ _ => exact unescapeChars_cons hamp s

theorem unescapeChars_escapeChars (s : List Char) : unescapeChars (escapeChars s) = s := by
  rw [escapeChars_eq_flatMap]
  induction s with
  | nil => rfl
  | cons c s ih => rw [List.flatMap_cons, unescapeChars_entity, ih]

theorem escapeChars_injective : Function.Injective escapeChars :=
  Function.LeftInverse.injective unescapeChars_escapeChars

theorem ne_angle_of_mem_entity {c x : Char} (h : x ∈ entity c) : x ≠ '<' ∧ x ≠ '>' := by
  have hall : ∀ e : List Char, e.all (fun y => y != '<' && y != '>') = true → x ∈ e →
      x ≠ '<' ∧ x ≠ '>' := by
    intro e he hx
    simpa using List.all_eq_true.1 he x hx
  unfold entity at h
  split at h
  · exact hall _ rfl h
  · exact hall _ rfl h
  · exact hall _ rfl h
  · next _ hlt hgt =>
      rw [List.mem_singleton.1 h]
      exact ⟨hlt, hgt⟩

theorem ne_angle_of_mem_escapeChars {s : List Char} {x : Char} (h : x ∈ escapeChars s) :
    x ≠ '<' ∧ x ≠ '>' := by
  rw [escapeChars_eq_flatMap] at h
  obtain ⟨c, -, hx⟩ := List.mem_flatMap.1 h
  exact ne_angle_of_mem_entity hx

/-- Escaped text has no angle bracket that opens. -/
theorem lt_not_mem_escapeChars (s : List Char) : '<' ∉ escapeChars s :=
  fun h => (ne_angle_of_mem_escapeChars h).1 rfl

/-! ### Ampersands

An ampersand is found in escaped text only where an entity begins. Inside of an entity there is none,
so the search for one never has to look into the middle of what a character became. -/

theorem exists_entity_eq_cons (c : Char) : ∃ x tail, entity c = x :: tail ∧ '&' ∉ tail := by
  unfold entity
  split
  · exact ⟨_, _, rfl, by decide⟩
  · exact ⟨_, _, rfl, by decide⟩
  · exact ⟨_, _, rfl, by decide⟩
  · exact ⟨_, _, rfl, List.not_mem_nil⟩

theorem isMarkup_of_entity_eq {c : Char} {r : List Char} (h : entity c = '&' :: r) :
    c ∈ ['&', '<', '>'] := by
  unfold entity at h
  split at h
  · decide
  · decide
  · decide
  · next hamp _ _ => exact absurd (List.cons.inj h).1 hamp

/-- An ampersand behind what a character became is where that begins, or further on. -/
theorem entity_append_eq {c : Char} {r front rest : List Char}
    (h : entity c ++ r = front ++ '&' :: rest) :
    (front = [] ∧ c ∈ ['&', '<', '>']) ∨
      ∃ more, front = entity c ++ more ∧ r = more ++ '&' :: rest := by
  obtain ⟨x, tail, hc, htail⟩ := exists_entity_eq_cons c
  rw [hc, List.cons_append] at h
  cases front with
  | nil =>
      obtain ⟨rfl, -⟩ := List.cons.inj h
      exact .inl ⟨rfl, isMarkup_of_entity_eq hc⟩
  | cons y front =>
      obtain ⟨rfl, hrest⟩ := List.cons.inj h
      rw [hc]
      rcases List.append_eq_append_iff.1 hrest with ⟨more, rfl, hr⟩ | ⟨part, rfl, hr⟩
      · exact .inr ⟨more, rfl, hr⟩
      · cases part with
        | nil => exact .inr ⟨[], by rw [List.append_nil, List.append_nil], hr.symm⟩
        | cons z part =>
            obtain ⟨rfl, -⟩ := List.cons.inj hr
            exact absurd (List.mem_append_right _ List.mem_cons_self) htail

/-- An ampersand in an escaped text is where a character of the text has become an entity, between
what was escaped before it and what was escaped after it. -/
theorem exists_of_escapeChars_eq {s front rest : List Char}
    (h : escapeChars s = front ++ '&' :: rest) :
    ∃ before c after, s = before ++ c :: after ∧ front = escapeChars before ∧
      c ∈ ['&', '<', '>'] ∧ '&' :: rest = entity c ++ escapeChars after := by
  induction s generalizing front with
  | nil => cases front <;> cases h
  | cons c s ih =>
      rw [escapeChars_cons] at h
      rcases entity_append_eq h with ⟨rfl, hc⟩ | ⟨more, rfl, hs⟩
      · exact ⟨[], c, s, rfl, rfl, hc, h.symm⟩
      · obtain ⟨before, d, after, rfl, rfl, hd, hafter⟩ := ih hs
        exact ⟨c :: before, d, after, rfl, (escapeChars_cons c before).symm, hd, hafter⟩

theorem exists_toList_eq_entity {c : Char} (h : c ∈ ['&', '<', '>']) :
    ∃ e ∈ ["&amp;", "&lt;", "&gt;"], e.toList = entity c := by
  simp only [List.mem_cons, List.not_mem_nil, or_false] at h
  rcases h with rfl | rfl | rfl
  · exact ⟨"&amp;", by decide, rfl⟩
  · exact ⟨"&lt;", by decide, rfl⟩
  · exact ⟨"&gt;", by decide, rfl⟩

/-! ### Texts -/

/-- A text with its entities replaced once, from left to right. -/
def unescape (s : String) : String :=
  String.ofList (unescapeChars s.toList)

/-- The three passes of the escape come to one, in which each character is replaced on its own. So
the escape goes through a text piece by piece; what it writes has no angle bracket and no ampersand
but those that begin entities, and replacing these once gives the text back. -/
theorem escape_in_one_pass (s t : String) :
    escape s = String.ofList (s.toList.flatMap entity) ∧
      escape (s ++ t) = escape s ++ escape t ∧
      '<' ∉ (escape s).toList ∧ '>' ∉ (escape s).toList ∧
      (∀ front rest, (escape s).toList = front ++ '&' :: rest →
        ∃ e ∈ ["&amp;", "&lt;", "&gt;"], e.toList <+: '&' :: rest) ∧
      unescape (escape s) = s := by
  have hchars : (escape s).toList = escapeChars s.toList := String.toList_ofList
  refine ⟨?_, ?_, ?_, ?_, fun front rest h => ?_, ?_⟩
  · rw [escape, escapeChars_eq_flatMap]
  · rw [escape, String.toList_append, escapeChars_append, String.ofList_append, escape, escape]
  · rw [hchars]
    exact lt_not_mem_escapeChars _
  · rw [hchars]
    exact fun h => (ne_angle_of_mem_escapeChars h).2 rfl
  · rw [hchars] at h
    obtain ⟨-, c, after, -, -, hc, hrest⟩ := exists_of_escapeChars_eq h
    obtain ⟨e, he, hec⟩ := exists_toList_eq_entity hc
    refine ⟨e, he, ?_⟩
    rw [hrest, hec]
    exact List.prefix_append _ _
  · rw [unescape, hchars, unescapeChars_escapeChars, String.ofList_toList]

/-- A text in which an entity is already written. -/
theorem escape_in_one_pass_twice :
    (escape "&lt;<").toList = "&amp;lt;".toList ++ '&' :: "lt;".toList ∧
      ∃ e ∈ ["&amp;", "&lt;", "&gt;"], e.toList <+: '&' :: "lt;".toList := by
  obtain ⟨-, -, -, -, hamp, -⟩ := escape_in_one_pass "&lt;<" ""
  have hchars : (escape "&lt;<").toList = "&amp;lt;".toList ++ '&' :: "lt;".toList := by
    decide
  exact ⟨hchars, hamp _ _ hchars⟩

/-! ## Digits -/

theorem digitValue?_digitChar {d : Nat} (h : d < 10) : digitValue? 10 (digitChar d) = some d := by
  have hall : ∀ d < 10, digitValue? 10 (digitChar d) = some d := by
    decide
  exact hall d h

theorem digits_ne_nil (n : Nat) : digits n ≠ [] := by
  rw [digits]
  split
  · exact List.cons_ne_nil _ _
  · exact List.append_ne_nil_of_right_ne_nil _ (List.cons_ne_nil _ _)

theorem exists_digitChar_of_mem_digits {n : Nat} {c : Char} (h : c ∈ digits n) :
    ∃ d < 10, c = digitChar d := by
  induction n using digits.induct with
  | case1 n hn =>
      rw [digits, if_pos hn] at h
      exact ⟨n, hn, List.mem_singleton.1 h⟩
  | case2 n hn ih =>
      rw [digits, if_neg hn] at h
      rcases List.mem_append.1 h with h | h
      · exact ih h
      · exact ⟨n % 10, Nat.mod_lt _ (by decide), List.mem_singleton.1 h⟩

theorem foldlM_digits (n : Nat) :
    (digits n).foldlM (fun m c => (digitValue? 10 c).map (m * 10 + ·)) 0 = some n := by
  induction n using digits.induct with
  | case1 n hn =>
      rw [digits, if_pos hn, List.foldlM_cons, digitValue?_digitChar hn]
      simp
  | case2 n hn ih =>
      have hlast : n % 10 < 10 := Nat.mod_lt n (by decide)
      have hsum : n / 10 * 10 + n % 10 = n := by
        omega
      rw [digits, if_neg hn, List.foldlM_append, ih, Option.bind_eq_bind, Option.bind_some,
        List.foldlM_cons, digitValue?_digitChar hlast, Option.map_some, hsum]
      rfl

/-- A numeral stands for the number that it was written for. -/
theorem number?_digits (n : Nat) : number? 10 (digits n) = some n := by
  rw [number?]
  · exact foldlM_digits n
  · exact digits_ne_nil n

theorem digits_injective : Function.Injective digits := by
  intro n m h
  have := congrArg (number? 10) h
  rwa [number?_digits, number?_digits, Option.some_inj] at this

end ActionSheet.Text
