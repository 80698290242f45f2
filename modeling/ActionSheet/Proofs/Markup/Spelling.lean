import ActionSheet.Markup.Reference

/-!
# The spellings of a value

A value can be written in more than one way: a character stands for itself, or is referred to by a
name or by its number. `Spells` is that relation, for a value between two quotation marks of one
kind; it knows nothing of offsets, of thirty-two bits or of where a reference begins to be looked
for. `expand_of_spells` says that expansion undoes every spelling, so no character of a value is
lost or read twice, whatever stands next to it.

The numbers are the only place with some arithmetic in it. A numeral is read digit by digit with a
bound after each, and the bound holds all the way because the numeral ends below it and no digit
makes a number smaller.
-/

namespace ActionSheet.Markup

open Text

/-- A run of digits stands for a number. -/
inductive Numeral (base : Nat) : List Char → Nat → Prop
  | digit {c : Char} {d : Nat} : digitValue? base c = some d → Numeral base [c] d
  | snoc {s : List Char} {c : Char} {n d : Nat} :
      Numeral base s n → digitValue? base c = some d → Numeral base (s ++ [c]) (n * base + d)

/-- What stands between the `&` and the `;` of a reference to a character. There is no reference to
the character zero. -/
inductive Refers : List Char → Char → Prop
  | lt : Refers "lt".toList '<'
  | gt : Refers "gt".toList '>'
  | amp : Refers "amp".toList '&'
  | apos : Refers "apos".toList '\''
  | quot : Refers "quot".toList '"'
  | decimal {s : List Char} {c : Char} : Numeral 10 s c.toNat → c ≠ '\x00' → Refers ('#' :: s) c
  | hexadecimal {s : List Char} {c : Char} :
      Numeral 16 s c.toNat → c ≠ '\x00' → Refers ('#' :: 'x' :: s) c

/-- A text spells a value between two quotation marks. -/
inductive Spells (quote : Char) : List Char → List Char → Prop
  | nil : Spells quote [] []
  | itself {c : Char} {value s : List Char} :
      c ≠ '&' → c ≠ quote → Spells quote value s → Spells quote (c :: value) (c :: s)
  | reference {c : Char} {body value s : List Char} :
      Refers body c → Spells quote value s →
      Spells quote (c :: value) ('&' :: (body ++ ';' :: s))

/-- Characters differ when a class tells them apart. -/
theorem ne_of_class {p : Char → Bool} {c d : Char} (hc : p c = false) (hd : p d = true) :
    c ≠ d := by
  rintro rfl
  exact Bool.false_ne_true (hc.symm.trans hd)

/-! ## Numerals -/

theorem hexValue?_of_digitValue? {base d : Nat} {c : Char} (h : digitValue? base c = some d) :
    hexValue? c = some d :=
  (Option.filter_eq_some_iff.1 h).1

def isHexDigit (c : Char) : Bool := (hexValue? c).isSome

theorem Numeral.isHexDigit {base n : Nat} {s : List Char} (h : Numeral base s n) :
    ∀ c ∈ s, isHexDigit c = true := by
  induction h with
  | digit hc =>
      intro c hmem
      rw [List.mem_singleton.1 hmem, Markup.isHexDigit, hexValue?_of_digitValue? hc]
      rfl
  | snoc _ hc ih =>
      intro c hmem
      rcases List.mem_append.1 hmem with hmem | hmem
      · exact ih c hmem
      · rw [List.mem_singleton.1 hmem, Markup.isHexDigit, hexValue?_of_digitValue? hc]
        rfl

theorem Numeral.ne_nil {base n : Nat} {s : List Char} (h : Numeral base s n) : s ≠ [] := by
  cases h with
  | digit => exact List.cons_ne_nil _ _
  | snoc => exact List.append_ne_nil_of_right_ne_nil _ (List.cons_ne_nil _ _)

theorem digitsValue_append (base n : Nat) (s t : List Char) :
    digitsValue base n (s ++ t) = (digitsValue base n s >>= fun m => digitsValue base m t) := by
  induction s generalizing n with
  | nil => rfl
  | cons c s ih =>
      rw [List.cons_append, digitsValue, digitsValue]
      split
      · rfl
      · split
        · exact ih _
        · rfl

theorem digitsValue_of_numeral {base n : Nat} {s : List Char} (h : Numeral base s n)
    (hbase : 0 < base) (hn : n < numberLimit) : digitsValue base 0 s = .ok n := by
  induction h with
  | @digit c d hc =>
      rw [digitsValue, hc]
      simp only [Nat.zero_mul, Nat.zero_add, if_pos hn]
      rfl
  | @snoc s c m d _ hc ih =>
      have hm : m < numberLimit := by
        have := Nat.le_mul_of_pos_right m hbase
        omega
      rw [digitsValue_append, ih hm]
      show digitsValue base m [c] = _
      rw [digitsValue, hc]
      simp only [if_pos hn]
      rfl

theorem characterNumber_of_numeral {base n : Nat} {s : List Char} (h : Numeral base s n)
    (hbase : 0 < base) (hn : n < numberLimit) : characterNumber base s = .ok n := by
  have hsign : ¬(s.head? = some '+' ∨ s.head? = some '-') := by
    rintro (hs | hs)
    · exact absurd (h.isHexDigit _ (List.mem_of_mem_head? hs)) (by decide)
    · exact absurd (h.isHexDigit _ (List.mem_of_mem_head? hs)) (by decide)
  rw [characterNumber, if_neg hsign, if_neg (by simpa using h.ne_nil)]
  exact digitsValue_of_numeral h hbase hn

theorem characterOf_toNat {c : Char} (h : c ≠ '\x00') : characterOf c.toNat = .ok c := by
  have hz : c.toNat ≠ 0 := by
    intro hz
    exact h (by rw [← Char.ofNat_toNat c, hz])
  rw [characterOf, if_neg hz, if_pos (show c.toNat.isValidChar from c.valid), Char.ofNat_toNat]

/-! ## References -/

theorem toNat_lt (c : Char) : c.toNat < numberLimit :=
  c.val.toNat_lt

theorem numberedCharacter_decimal {s : List Char} {c : Char} (h : Numeral 10 s c.toNat)
    (hc : c ≠ '\x00') : numberedCharacter s = .ok c := by
  have hx : ∀ r, s ≠ 'x' :: r := by
    rintro r rfl
    exact absurd (h.isHexDigit 'x' List.mem_cons_self) (by decide)
  rw [numberedCharacter, characterNumber_of_numeral h (by decide) (toNat_lt c)]
  · exact characterOf_toNat hc
  · exact hx

theorem numberedCharacter_hexadecimal {s : List Char} {c : Char} (h : Numeral 16 s c.toNat)
    (hc : c ≠ '\x00') : numberedCharacter ('x' :: s) = .ok c := by
  rw [numberedCharacter, characterNumber_of_numeral h (by decide) (toNat_lt c)]
  exact characterOf_toNat hc

theorem Refers.referencedCharacter_eq {body : List Char} {c : Char} (h : Refers body c)
    (offset : Nat) : referencedCharacter offset body = .ok c := by
  cases h with
  | lt | gt | amp | apos | quot => rfl
  | decimal hs hc => exact numberedCharacter_decimal hs hc
  | hexadecimal hs hc => exact numberedCharacter_hexadecimal hs hc

/-- The characters that end a reference or the value around it. -/
def isDelimiter (c : Char) : Bool := c = '&' || c = ';' || c = '"' || c = '\''

theorem not_isDelimiter_of_isHexDigit {c : Char} (h : isHexDigit c = true) :
    isDelimiter c = false := by
  cases hd : isDelimiter c with
  | false => rfl
  | true =>
      simp only [isDelimiter, Bool.or_eq_true, decide_eq_true_eq] at hd
      rcases hd with ((rfl | rfl) | rfl) | rfl
      all_goals exact absurd h (by decide)

theorem Refers.not_isDelimiter {body : List Char} {c : Char} (h : Refers body c) :
    ∀ x ∈ body, isDelimiter x = false := by
  cases h with
  | lt | gt | amp | apos | quot =>
      exact fun x hx => Bool.eq_false_iff.2 (List.any_eq_false.1 rfl x hx)
  | decimal hs _ =>
      intro x hx
      rcases List.mem_cons.1 hx with rfl | hx
      · rfl
      · exact not_isDelimiter_of_isHexDigit (hs.isHexDigit x hx)
  | hexadecimal hs _ =>
      intro x hx
      rcases List.mem_cons.1 hx with rfl | hx
      · rfl
      · rcases List.mem_cons.1 hx with rfl | hx
        · rfl
        · exact not_isDelimiter_of_isHexDigit (hs.isHexDigit x hx)

/-! ## Expansion -/

theorem expandFrom_cons {c : Char} (hc : c ≠ '&') (size offset : Nat) (s : List Char) :
    expandFrom size offset (c :: s) =
      (expandFrom size (offset + c.utf8Size) s >>= fun xs => .ok (c :: xs)) := by
  rw [expandFrom, if_neg hc]
  rfl

theorem expandFrom_reference {c : Char} {body : List Char} (h : Refers body c)
    (size offset : Nat) (s : List Char) :
    expandFrom size offset ('&' :: (body ++ ';' :: s)) =
      (expandFrom size (offset + 1 + byteLength body + 1) s >>= fun xs => .ok (c :: xs)) := by
  have hall : ∀ x ∈ body, (decide (x ≠ '&') && decide (x ≠ ';')) = true := by
    intro x hx
    have hd := h.not_isDelimiter x hx
    rw [decide_eq_true (ne_of_class hd rfl), decide_eq_true (ne_of_class hd rfl)]
    rfl
  have htail : referenceTail (body ++ ';' :: s) = ';' :: s := by
    rw [referenceTail, List.dropWhile_append_of_pos hall]
    rfl
  have hbody : referenceBody (body ++ ';' :: s) = body := by
    rw [referenceBody, List.takeWhile_append_of_pos hall]
    exact List.append_nil _
  rw [expandFrom, if_pos rfl]
  split
  · next rest hrest =>
      rw [htail] at hrest
      cases hrest
      rw [hbody, h.referencedCharacter_eq]
      rfl
  · next hno => exact absurd htail (hno s)

theorem expandFrom_of_spells {quote : Char} {value s : List Char} (h : Spells quote value s) :
    ∀ size offset, expandFrom size offset s = .ok value := by
  induction h with
  | nil =>
      intro size offset
      rw [expandFrom]
  | itself ha _ _ ih =>
      intro size offset
      rw [expandFrom_cons ha, ih]
      rfl
  | reference hr _ ih =>
      intro size offset
      rw [expandFrom_reference hr, ih]
      rfl

/-- Expansion undoes every spelling. -/
theorem expand_of_spells {quote : Char} {value s : List Char} (h : Spells quote value s) :
    expand s = .ok value :=
  expandFrom_of_spells h _ _

/-- The quotation mark that ends a value does not come before its end. -/
theorem Spells.ne_quote {quote : Char} {value s : List Char} (h : Spells quote value s)
    (hq : quote = '"' ∨ quote = '\'') : ∀ x ∈ s, x ≠ quote := by
  have hquote : isDelimiter quote = true ∧ '&' ≠ quote ∧ ';' ≠ quote := by
    rcases hq with rfl | rfl
    · decide
    · decide
  obtain ⟨hd, ha, hs⟩ := hquote
  induction h with
  | nil =>
      intro x hx
      cases hx
  | itself _ hc _ ih =>
      intro x hx
      rcases List.mem_cons.1 hx with rfl | hx
      · exact hc
      · exact ih x hx
  | reference hr _ ih =>
      intro x hx
      rcases List.mem_cons.1 hx with rfl | hx
      · exact ha
      · rcases List.mem_append.1 hx with hx | hx
        · exact ne_of_class (hr.not_isDelimiter x hx) hd
        · rcases List.mem_cons.1 hx with rfl | hx
          · exact hs
          · exact ih x hx

/-- Where no reference begins, a value is spelled by itself. -/
theorem Spells.eq_of_not_mem {quote : Char} {value s : List Char} (h : Spells quote value s)
    (ha : '&' ∉ s) : s = value := by
  induction h with
  | nil => rfl
  | itself _ _ _ ih => rw [ih fun hm => ha (List.mem_cons_of_mem _ hm)]
  | reference _ _ _ => exact absurd List.mem_cons_self ha

theorem spells_self {quote : Char} {s : List Char} (h : ∀ c ∈ s, c ≠ '&' ∧ c ≠ quote) :
    Spells quote s s := by
  induction s with
  | nil => exact .nil
  | cons c s ih =>
      obtain ⟨ha, hq⟩ := h c List.mem_cons_self
      exact .itself ha hq (ih fun x hx => h x (List.mem_cons_of_mem _ hx))

end ActionSheet.Markup
