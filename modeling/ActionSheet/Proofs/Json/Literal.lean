import ActionSheet.Json.Parser
import ActionSheet.Json.Printer
import ActionSheet.Proofs.Text.Inverse
import Mathlib.Data.List.Basic

/-!
# JSON literals are read back

A literal is read as what it was written for: a string as the text that it spells, a numeral as the
integer it stands for, or as itself where it stands for none. In every statement the rest of the
text is left open. A string ends at its own quotation mark, whatever comes then; a numeral ends
where the text goes on with something that no numeral goes on with, and that is what has to be known
of it.

The readers hand back their rest with the fact that it is shorter. Statements about them are made of
`left`, which keeps the characters of the rest and forgets that fact.
-/

namespace ActionSheet.Json

open Text

/-! ## Reading without positions -/

/-- What was read, and the characters that are left. -/
def left {α : Type} {s : List Char} (r : Option (α × Rest s)) : Option (α × List Char) :=
  r.map fun p => (p.1, p.2.1)

theorem left_map {α β : Type} {s t : List Char} (r : Option (α × Rest s)) (f : α → β)
    (widen : Rest s → Rest t) (h : ∀ q, (widen q).1 = q.1) :
    left (r.map fun p => (f p.1, widen p.2)) = (left r).map fun p => (f p.1, p.2) := by
  cases r with
  | none => rfl
  | some p => simp [left, h]

theorem left_weaken {α : Type} {s t : List Char} (r : Option (α × Rest s))
    (h : s.length ≤ t.length) : left (r.map fun p => (p.1, p.2.weaken h)) = left r :=
  (left_map r id (·.weaken h) fun _ => rfl).trans Option.map_id'

theorem skipBlanks_cons {c : Char} (h : isBlank c = false) (r : List Char) :
    skipBlanks (c :: r) = c :: r := by
  rw [skipBlanks, List.dropWhile_cons, h]
  rfl

/-! ## Strings -/

theorem left_stringBody_quote (acc : Option (List Char)) (r : List Char) :
    left (stringBody acc ('"' :: r)) = some (acc.map fun cs => String.ofList cs.reverse, r) := by
  rw [stringBody]
  rfl

theorem left_stringBody_short {e c : Char} (h : shortEscape? e = some c) (hu : e ≠ 'u')
    (acc : Option (List Char)) (r : List Char) :
    left (stringBody acc ('\\' :: e :: r)) = left (stringBody (acc.map (c :: ·)) r) := by
  rw [stringBody]
  · rw [h]
    exact left_weaken _ (by simp; omega)
  · rintro a b c d r' rfl
    exact fun _ => hu rfl

theorem left_stringBody_unit {a b c d : Char} {u : Nat} (h : hexUnit? a b c d = some u)
    (hu : u < 0xd800) (acc : Option (List Char)) (r : List Char) :
    left (stringBody acc ('\\' :: 'u' :: a :: b :: c :: d :: r)) =
      left (stringBody (acc.map (Char.ofNat u :: ·)) r) := by
  have hhigh : isHighSurrogate u = false := by
    simp [isHighSurrogate, Nat.not_le.2 hu]
  have hlow : isLowSurrogate u = false := by
    have : ¬0xdc00 ≤ u := by
      omega
    simp [isLowSurrogate, this]
  rw [stringBody, h]
  simp only [hhigh, hlow, Bool.false_eq_true, if_false]
  exact left_weaken _ (by simp; omega)

theorem left_stringBody_plain {c : Char} (hc : 0x20 ≤ c.toNat) (hquote : c ≠ '"')
    (hslash : c ≠ '\\') (acc : Option (List Char)) (r : List Char) :
    left (stringBody acc (c :: r)) = left (stringBody (acc.map (c :: ·)) r) := by
  have hplain : (c.toNat < 0x20 || c == '\\') = false := by
    simp [hslash, Nat.not_lt.2 hc]
  rw [stringBody]
  · rw [hplain, if_neg Bool.false_ne_true]
    exact left_weaken _ (by simp)
  · exact hquote
  · rintro a b c' d r' rfl
    exact absurd rfl hslash
  · rintro e r' rfl
    exact absurd rfl hslash

theorem hexValue?_hexChar {d : Nat} (h : d < 16) : hexValue? (hexChar d) = some d := by
  have hall : ∀ d < 16, hexValue? (hexChar d) = some d := by
    decide
  exact hall d h

theorem hexUnit?_control {n : Nat} (h : n < 0x20) :
    hexUnit? '0' '0' (hexChar (n / 16)) (hexChar (n % 16)) = some n := by
  have hzero : hexValue? '0' = some 0 := rfl
  have hsum : ((0 * 16 + 0) * 16 + n / 16) * 16 + n % 16 = n := by
    omega
  rw [hexUnit?, hzero, hexValue?_hexChar (by omega), hexValue?_hexChar (Nat.mod_lt _ (by omega))]
  exact congrArg some hsum

/-- A character stands in a literal behind a backslash by a letter, by its number if it is a control
character, or as it is. -/
theorem escapeChar_cases (c : Char) :
    (∃ e, shortEscape? e = some c ∧ e ≠ 'u' ∧ escapeChar c = ['\\', e]) ∨
    (c.toNat < 0x20 ∧
      escapeChar c = ['\\', 'u', '0', '0', hexChar (c.toNat / 16), hexChar (c.toNat % 16)]) ∨
    (0x20 ≤ c.toNat ∧ c ≠ '"' ∧ c ≠ '\\' ∧ escapeChar c = [c]) := by
  by_cases hshort : c ∈ ['"', '\\', '\x08', '\x0c', '\n', '\r', '\t']
  · left
    simp only [List.mem_cons, List.not_mem_nil, or_false] at hshort
    obtain rfl | rfl | rfl | rfl | rfl | rfl | rfl := hshort
    · exact ⟨'"', rfl, by decide, rfl⟩
    · exact ⟨'\\', rfl, by decide, rfl⟩
    · exact ⟨'b', rfl, by decide, rfl⟩
    · exact ⟨'f', rfl, by decide, rfl⟩
    · exact ⟨'n', rfl, by decide, rfl⟩
    · exact ⟨'r', rfl, by decide, rfl⟩
    · exact ⟨'t', rfl, by decide, rfl⟩
  · right
    simp only [List.mem_cons, List.not_mem_nil, or_false, not_or] at hshort
    obtain ⟨hquote, hslash, hb, hf, hn, hr, ht⟩ := hshort
    have hescape : escapeChar c = if c.toNat < 0x20 then
        ['\\', 'u', '0', '0', hexChar (c.toNat / 16), hexChar (c.toNat % 16)] else [c] := by
      rw [escapeChar, if_neg hquote, if_neg hslash, if_neg hb, if_neg hf, if_neg hn, if_neg hr,
        if_neg ht]
    by_cases hcontrol : c.toNat < 0x20
    · exact .inl ⟨hcontrol, hescape.trans (if_pos hcontrol)⟩
    · exact .inr ⟨Nat.not_lt.1 hcontrol, hquote, hslash, hescape.trans (if_neg hcontrol)⟩

/-- A character is read off its escape. -/
theorem left_stringBody_escapeChar (c : Char) (acc : Option (List Char)) (r : List Char) :
    left (stringBody acc (escapeChar c ++ r)) = left (stringBody (acc.map (c :: ·)) r) := by
  rcases escapeChar_cases c with ⟨e, he, hu, h⟩ | ⟨hcontrol, h⟩ | ⟨hc, hquote, hslash, h⟩
  · rw [h]
    exact left_stringBody_short he hu acc r
  · have hunit := left_stringBody_unit (hexUnit?_control hcontrol) (by omega) acc r
    rw [Char.ofNat_toNat] at hunit
    rw [h]
    exact hunit
  · rw [h]
    exact left_stringBody_plain hc hquote hslash acc r

theorem left_stringBody (s acc r : List Char) :
    left (stringBody (some acc) (s.flatMap escapeChar ++ '"' :: r)) =
      some (some (String.ofList (acc.reverse ++ s)), r) := by
  induction s generalizing acc with
  | nil =>
      rw [List.flatMap_nil, List.nil_append, left_stringBody_quote, List.append_nil]
      rfl
  | cons c s ih =>
      rw [List.flatMap_cons, List.append_assoc, left_stringBody_escapeChar, Option.map_some, ih,
        List.reverse_cons, List.append_assoc, List.singleton_append]

/-! ## Numerals -/

/-- Decimal digits, at least one. -/
def IsDigits (ds : List Char) : Prop := ds ≠ [] ∧ ∀ c ∈ ds, isDigit c = true

/-- A zero, or digits that do not begin with one. -/
def IsWhole (ds : List Char) : Prop := ds = ['0'] ∨ (IsDigits ds ∧ ds.head? ≠ some '0')

/-- Nothing, or a point and digits. -/
def IsFraction (s : List Char) : Prop := s = [] ∨ ∃ ds, IsDigits ds ∧ s = '.' :: ds

/-- Nothing, or the mark of an exponent, a sign at will, and digits. -/
def IsExponent (s : List Char) : Prop :=
  s = [] ∨ ∃ mark sign ds, (mark = 'e' ∨ mark = 'E') ∧ (sign = [] ∨ sign = ['+'] ∨ sign = ['-']) ∧
    IsDigits ds ∧ s = mark :: (sign ++ ds)

/-- A numeral that stands for no integer: it has a fraction or an exponent, or is a negative zero. -/
inductive IsReal : List Char → Prop
  | mk {sign whole fraction exponent : List Char} (hsign : sign = [] ∨ sign = ['-'])
      (hwhole : IsWhole whole) (hfraction : IsFraction fraction) (hexponent : IsExponent exponent)
      (h : fraction ≠ [] ∨ exponent ≠ [] ∨ (sign = ['-'] ∧ whole = ['0'])) :
      IsReal (sign ++ whole ++ fraction ++ exponent)

/-- No character of a class comes next. -/
def NoneNext (p : Char → Bool) (s : List Char) : Prop := ∀ c ∈ s.head?, p c = false

/-- What can stand behind a value: nothing, a comma, or the end of an array or an object. -/
def Closes (s : List Char) : Prop := ∀ c ∈ s.head?, c = ',' ∨ c = ']' ∨ c = '\x7d'

/-- Whether a numeral can go on with a character. -/
def isNumeralPart (c : Char) : Bool := isDigit c || c == '.' || c == 'e' || c == 'E'

theorem Closes.noneNext {s : List Char} (h : Closes s) : NoneNext isNumeralPart s := by
  intro c hc
  rcases h c hc with rfl | rfl | rfl
  · decide
  · decide
  · decide

theorem NoneNext.takeWhile_eq {p : Char → Bool} {s : List Char} (h : NoneNext p s) :
    s.takeWhile p = [] := by
  cases s with
  | nil => rfl
  | cons c s => rw [List.takeWhile_cons, h c rfl, if_neg Bool.false_ne_true]

theorem NoneNext.dropWhile_eq {p : Char → Bool} {s : List Char} (h : NoneNext p s) :
    s.dropWhile p = s := by
  cases s with
  | nil => rfl
  | cons c s => rw [List.dropWhile_cons, h c rfl, if_neg Bool.false_ne_true]

theorem digitRun_append {ds r : List Char} (hds : IsDigits ds) (hr : NoneNext isDigit r) :
    digitRun (ds ++ r) = some (ds, r) := by
  rw [digitRun, List.takeWhile_append_of_pos hds.2, List.dropWhile_append_of_pos hds.2,
    hr.takeWhile_eq, hr.dropWhile_eq, List.append_nil]
  split
  · exact absurd rfl hds.1
  · rfl

theorem wholePart_append {ds r : List Char} (hds : IsWhole ds) (hr : NoneNext isDigit r) :
    wholePart (ds ++ r) = some (ds, r) := by
  rcases hds with rfl | ⟨hds, hzero⟩
  · rfl
  · unfold wholePart
    split
    · next r' heq =>
        cases ds with
        | nil => exact absurd rfl hds.1
        | cons d ds => exact absurd (congrArg some (List.cons.inj heq).1) hzero
    · exact digitRun_append hds hr

theorem fractionPart_append {s r : List Char} (hs : IsFraction s) (hr : NoneNext isDigit r)
    (hpoint : s = [] → NoneNext (· == '.') r) : fractionPart (s ++ r) = some (s, r) := by
  rcases hs with rfl | ⟨ds, hds, rfl⟩
  · unfold fractionPart
    split
    · next r' heq =>
        subst heq
        exact absurd (hpoint rfl '.' rfl) (by decide)
    · rfl
  · show (digitRun (ds ++ r)).map _ = _
    rw [digitRun_append hds hr]
    rfl

theorem exponentSign_append {sign ds r : List Char} (hsign : sign = [] ∨ sign = ['+'] ∨ sign = ['-'])
    (hds : IsDigits ds) : exponentSign (sign ++ ds ++ r) = (sign, ds ++ r) := by
  rcases hsign with rfl | rfl | rfl
  · obtain ⟨d, ds, rfl⟩ := List.exists_cons_of_ne_nil hds.1
    have hd : isDigit d = true := hds.2 d List.mem_cons_self
    unfold exponentSign
    split
    · next heq => exact absurd ((List.cons.inj heq).1 ▸ hd) (by decide)
    · next heq => exact absurd ((List.cons.inj heq).1 ▸ hd) (by decide)
    · rfl
  · rfl
  · rfl

theorem exponentPart_append {s r : List Char} (hs : IsExponent s) (hr : NoneNext isNumeralPart r) :
    exponentPart (s ++ r) = some (s, r) := by
  rcases hs with rfl | ⟨mark, sign, ds, hmark, hsign, hds, rfl⟩
  · cases r with
    | nil => rfl
    | cons c r =>
        have hc : (c == 'e' || c == 'E') = false := by
          have := hr c rfl
          simp only [isNumeralPart, Bool.or_eq_false_iff] at this ⊢
          exact ⟨this.1.2, this.2⟩
        rw [List.nil_append, exponentPart, hc]
        rfl
  · have hmark : (mark == 'e' || mark == 'E') = true := by
      rcases hmark with rfl | rfl
      · decide
      · decide
    have hdigit : NoneNext isDigit r := by
      intro c hc
      have := hr c hc
      simp only [isNumeralPart, Bool.or_eq_false_iff] at this
      exact this.1.1.1
    rw [List.cons_append, exponentPart, if_pos hmark, exponentSign_append hsign hds]
    simp only [digitRun_append hds hdigit, Option.map_some]
    rfl

theorem splitSign_append {sign s : List Char} (hsign : sign = [] ∨ sign = ['-'])
    (hs : NoneNext (· == '-') s) : splitSign (sign ++ s) = (!sign.isEmpty, s) := by
  rcases hsign with rfl | rfl
  · rw [List.nil_append]
    unfold splitSign
    split
    · exact absurd (hs '-' rfl) (by decide)
    · rfl
  · rfl

theorem IsWhole.isDigits {ds : List Char} (h : IsWhole ds) : IsDigits ds := by
  rcases h with rfl | ⟨hds, -⟩
  · exact ⟨List.cons_ne_nil _ _, List.forall_mem_singleton.2 rfl⟩
  · exact hds

/-- A class of which no numeral has a character but where an exponent may not begin. -/
theorem noneNext_exponent {s r : List Char} (hs : IsExponent s) (hr : NoneNext isNumeralPart r)
    {p : Char → Bool} (hp : ∀ c, p c = true → isNumeralPart c = true ∧ c ≠ 'e' ∧ c ≠ 'E') :
    NoneNext p (s ++ r) := by
  rcases hs with rfl | ⟨mark, sign, ds, hmark, -, -, rfl⟩
  · intro c hc
    refine Bool.eq_false_iff.2 fun h => ?_
    exact Bool.eq_false_iff.1 (hr c hc) (hp c h).1
  · intro c hc
    cases hc
    refine Bool.eq_false_iff.2 fun h => ?_
    rcases hmark with rfl | rfl
    · exact (hp 'e' h).2.1 rfl
    · exact (hp 'E' h).2.2 rfl

theorem noneNext_fraction {s t : List Char} (hs : IsFraction s) (ht : NoneNext isDigit t) :
    NoneNext isDigit (s ++ t) := by
  rcases hs with rfl | ⟨ds, -, rfl⟩
  · exact ht
  · intro c hc
    cases hc
    decide

theorem noneNext_minus {ds s : List Char} (h : IsDigits ds) : NoneNext (· == '-') (ds ++ s) := by
  obtain ⟨d, ds, rfl⟩ := List.exists_cons_of_ne_nil h.1
  intro c hc
  cases hc
  refine Bool.eq_false_iff.2 fun heq => ?_
  have hd := h.2 d List.mem_cons_self
  rw [beq_iff_eq.1 heq] at hd
  exact absurd hd (by decide)

/-- A numeral is read part by part, and its parts decide what it is taken for. -/
theorem number?_append {sign whole fraction exponent r : List Char} {size : Nat}
    (hsign : sign = [] ∨ sign = ['-']) (hwhole : IsWhole whole) (hfraction : IsFraction fraction)
    (hexponent : IsExponent exponent) (hr : Closes r) (hsize : Text.number? 10 whole = some size) :
    number? (sign ++ whole ++ fraction ++ exponent ++ r) =
      if fraction.isEmpty && exponent.isEmpty && !(!sign.isEmpty && size == 0) then
        some (.integer (if !sign.isEmpty then -(size : Int) else size), r)
      else some (.real (String.ofList (sign ++ whole ++ fraction ++ exponent)), r) := by
  have hnone := hr.noneNext
  have hdigit : NoneNext isDigit (exponent ++ r) := noneNext_exponent hexponent hnone fun c hc => by
    refine ⟨by simp [isNumeralPart, hc], ?_, ?_⟩
    · rintro rfl
      exact absurd hc (by decide)
    · rintro rfl
      exact absurd hc (by decide)
  have hpoint : NoneNext (· == '.') (exponent ++ r) := noneNext_exponent hexponent hnone fun c hc => by
    rw [beq_iff_eq.1 hc]
    decide
  have hsignChars : (if !sign.isEmpty then ['-'] else []) = sign := by
    rcases hsign with rfl | rfl
    · rfl
    · rfl
  have hsplit := splitSign_append hsign
    (noneNext_minus (s := fraction ++ (exponent ++ r)) hwhole.isDigits)
  simp only [List.append_assoc]
  rw [number?, hsplit]
  simp only [Option.bind_eq_bind, wholePart_append hwhole (noneNext_fraction hfraction hdigit),
    Option.bind_some, fractionPart_append hfraction hdigit fun _ => hpoint,
    exponentPart_append hexponent hnone, hsize, Option.pure_def, hsignChars, List.append_assoc]

theorem isDigit_digitChar {d : Nat} (h : d < 10) : isDigit (Text.digitChar d) = true := by
  have hall : ∀ d < 10, isDigit (Text.digitChar d) = true := by
    decide
  exact hall d h

theorem isDigits_digits (n : Nat) : IsDigits (digits n) := by
  refine ⟨digits_ne_nil n, fun c hc => ?_⟩
  obtain ⟨d, hd, rfl⟩ := exists_digitChar_of_mem_digits hc
  exact isDigit_digitChar hd

theorem head?_digits {n : Nat} (h : 0 < n) : (digits n).head? ≠ some '0' := by
  induction n using digits.induct with
  | case1 n hn =>
      have hall : ∀ d < 10, 0 < d → some (Text.digitChar d) ≠ some '0' := by
        decide
      rw [digits, if_pos hn]
      exact hall n hn h
  | case2 n hn ih =>
      rw [digits, if_neg hn, List.head?_append_of_ne_nil _ (digits_ne_nil _)]
      exact ih (by omega)

theorem isWhole_digits (n : Nat) : IsWhole (digits n) := by
  rcases Nat.eq_zero_or_pos n with rfl | h
  · exact .inl (by rw [digits, if_pos (by decide)]; rfl)
  · exact .inr ⟨isDigits_digits n, head?_digits h⟩

theorem number?_integerChars (n : Int) {r : List Char} (hr : Closes r) :
    number? (integerChars n ++ r) = some (.integer n, r) := by
  have hwhole := isWhole_digits n.natAbs
  have hsize := number?_digits n.natAbs
  unfold integerChars
  split
  · next hneg =>
      have h := number?_append (.inr rfl) hwhole (.inl rfl) (.inl rfl) hr hsize
      have hsize : (n.natAbs == 0) = false := beq_false_of_ne (by omega)
      have hvalue : -(n.natAbs : Int) = n := by
        omega
      simp only [List.append_nil, List.singleton_append] at h
      rw [h, hsize, hvalue]
      rfl
  · next hneg =>
      have h := number?_append (.inl rfl) hwhole (.inl rfl) (.inl rfl) hr hsize
      have hvalue : (n.natAbs : Int) = n := by
        omega
      simp only [List.append_nil, List.nil_append] at h
      rw [h, hvalue]
      rfl

theorem digitValue?_of_isDigit {c : Char} (h : isDigit c = true) :
    ∃ d, digitValue? 10 c = some d := by
  rw [isDigit, Bool.and_eq_true, decide_eq_true_iff, decide_eq_true_iff] at h
  have hle : c.toNat ≤ 57 := h.2
  refine ⟨c.toNat - 48, ?_⟩
  rw [digitValue?, hexValue?, if_pos h, Option.filter_some, if_pos (decide_eq_true (by omega))]

theorem exists_number? {ds : List Char} (h : IsDigits ds) : ∃ n, Text.number? 10 ds = some n := by
  obtain ⟨hne, hds⟩ := h
  have hfold : ∀ m, ∃ n,
      ds.foldlM (fun n c => (digitValue? 10 c).map (n * 10 + ·)) m = some n := by
    clear hne
    induction ds with
    | nil => exact fun m => ⟨m, rfl⟩
    | cons c ds ih =>
        intro m
        obtain ⟨d, hd⟩ := digitValue?_of_isDigit (hds c List.mem_cons_self)
        obtain ⟨n, hn⟩ := ih (fun c hc => hds c (List.mem_cons_of_mem _ hc)) (m * 10 + d)
        refine ⟨n, ?_⟩
        rw [List.foldlM_cons, hd]
        exact hn
  obtain ⟨n, hn⟩ := hfold 0
  refine ⟨n, ?_⟩
  rw [Text.number?]
  · exact hn
  · exact hne

theorem number?_real {s : List Char} (h : IsReal s) {r : List Char} (hr : Closes r) :
    number? (s ++ r) = some (.real (String.ofList s), r) := by
  obtain ⟨hsign, hwhole, hfraction, hexponent, hparts⟩ := h
  obtain ⟨size, hsize⟩ := exists_number? hwhole.isDigits
  rw [number?_append hsign hwhole hfraction hexponent hr hsize]
  refine if_neg ?_
  rcases hparts with hne | hne | ⟨rfl, rfl⟩
  · simp [hne]
  · simp [hne]
  · cases hsize
    simp

end ActionSheet.Json
