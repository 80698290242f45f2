import ActionSheet.Json.Value
import ActionSheet.Text.Blank
import ActionSheet.Text.Decimal

/-!
# Reading JSON

The reader accepts the grammar of JSON and nothing beyond it: no comments, no trailing commas, no
control characters inside strings, only blanks around the one value of a text. Nesting has no
limit. Every part of the reader hands back what it has not read together with the fact that this
is shorter than what it was given, which is all that its termination needs.
-/

namespace ActionSheet.Json

open Text

/-- What is left of a text after something was read off its front. -/
abbrev Rest (s : List Char) := { r : List Char // r.length < s.length }

/-- A rest of a shorter text is a rest of the longer one. -/
def Rest.weaken {s t : List Char} (r : Rest s) (h : s.length ≤ t.length) : Rest t :=
  ⟨r.1, Nat.lt_of_lt_of_le r.2 h⟩

/-- The text without the blanks at its front. -/
def skipBlanks : List Char → List Char :=
  List.dropWhile isBlank

theorem length_skipBlanks_le (s : List Char) : (skipBlanks s).length ≤ s.length :=
  List.IsSuffix.length_le (List.dropWhile_suffix _)

/-- The value of four hexadecimal digits. -/
def hexUnit? (a b c d : Char) : Option Nat := do
  let a ← hexValue? a
  let b ← hexValue? b
  let c ← hexValue? c
  let d ← hexValue? d
  return ((a * 16 + b) * 16 + c) * 16 + d

/-- Whether a code unit is the first half of a surrogate pair. -/
def isHighSurrogate (u : Nat) : Bool := 0xd800 ≤ u && u < 0xdc00

/-- Whether a code unit is the second half of a surrogate pair. -/
def isLowSurrogate (u : Nat) : Bool := 0xdc00 ≤ u && u < 0xe000

/-- The character of a surrogate pair. -/
def pairChar (high low : Nat) : Char :=
  Char.ofNat (0x10000 + (high - 0xd800) * 0x400 + (low - 0xdc00))

/-- The character that a one-letter escape stands for. -/
def shortEscape? : Char → Option Char
  | '"' => some '"'
  | '\\' => some '\\'
  | '/' => some '/'
  | 'b' => some '\x08'
  | 'f' => some '\x0c'
  | 'n' => some '\n'
  | 'r' => some '\r'
  | 't' => some '\t'
  | _ => none

/-- The second half of a surrogate pair, when it is what a text goes on with. -/
def secondHalf? : List Char → Option (Nat × List Char)
  | '\\' :: 'u' :: a :: b :: c :: d :: r =>
    (hexUnit? a b c d).bind fun u => if isLowSurrogate u then some (u, r) else none
  | _ => none

theorem length_secondHalf? {s r : List Char} {u : Nat} (h : secondHalf? s = some (u, r)) :
    r.length < s.length := by
  unfold secondHalf? at h
  split at h
  · simp only [Option.bind_eq_some_iff, Option.ite_none_right_eq_some, Option.some.injEq,
      Prod.mk.injEq] at h
    obtain ⟨_, _, _, _, rfl⟩ := h
    simp
    omega
  · cases h

/-- The rest of a string literal after its opening quotation mark: the characters it spells, most
recent first in `acc`, or nothing once half a surrogate pair was met. -/
def stringBody (acc : Option (List Char)) (s : List Char) :
    Option (Option String × Rest s) :=
  match s with
  | [] => none
  | '"' :: r => some (acc.map fun cs => String.ofList cs.reverse, ⟨r, by simp⟩)
  | '\\' :: 'u' :: a :: b :: c :: d :: r =>
    match hexUnit? a b c d with
    | none => none
    | some u =>
      if isHighSurrogate u then
        match h : secondHalf? r with
        | some (u', r') =>
          have := length_secondHalf? h
          (stringBody (acc.map (pairChar u u' :: ·)) r').map fun (t, q) =>
            (t, q.weaken (by simp; omega))
        | none => (stringBody none r).map fun (t, q) => (t, q.weaken (by simp; omega))
      else if isLowSurrogate u then
        (stringBody none r).map fun (t, q) => (t, q.weaken (by simp; omega))
      else
        (stringBody (acc.map (Char.ofNat u :: ·)) r).map fun (t, q) =>
          (t, q.weaken (by simp; omega))
  | '\\' :: e :: r =>
    match shortEscape? e with
    | none => none
    | some c => (stringBody (acc.map (c :: ·)) r).map fun (t, q) => (t, q.weaken (by simp; omega))
  | c :: r =>
    if c.toNat < 0x20 || c == '\\' then none
    else (stringBody (acc.map (c :: ·)) r).map fun (t, q) => (t, q.weaken (by simp))
termination_by s.length
decreasing_by all_goals simp_wf; try omega

/-- Whether a character is a decimal digit. -/
def isDigit (c : Char) : Bool := '0' ≤ c && c ≤ '9'

/-- At least one digit. -/
def digitRun (s : List Char) : Option (List Char × List Char) :=
  match s.takeWhile isDigit with
  | [] => none
  | ds => some (ds, s.dropWhile isDigit)

theorem length_digitRun {s ds r : List Char} (h : digitRun s = some (ds, r)) :
    r.length < s.length := by
  unfold digitRun at h
  split at h
  · cases h
  · next hne =>
    cases h
    have hs := congrArg List.length (List.takeWhile_append_dropWhile (p := isDigit) (l := s))
    have hp : 0 < (s.takeWhile isDigit).length := List.length_pos_iff.2 hne
    simp only [List.length_append] at hs
    omega

/-- The whole part of a number: a zero, or digits that do not begin with one. -/
def wholePart : List Char → Option (List Char × List Char)
  | '0' :: r => some (['0'], r)
  | s => digitRun s

theorem length_wholePart {s ds r : List Char} (h : wholePart s = some (ds, r)) :
    r.length < s.length := by
  unfold wholePart at h
  split at h
  · cases h
    simp
  · exact length_digitRun h

/-- The fraction of a number, when there is one. -/
def fractionPart : List Char → Option (List Char × List Char)
  | '.' :: r => (digitRun r).map fun (ds, q) => ('.' :: ds, q)
  | s => some ([], s)

theorem length_fractionPart {s ds r : List Char} (h : fractionPart s = some (ds, r)) :
    r.length ≤ s.length := by
  unfold fractionPart at h
  split at h
  · obtain ⟨⟨ds', q⟩, hq, hr⟩ := Option.map_eq_some_iff.1 h
    cases hr
    have := length_digitRun hq
    simp only [List.length_cons]
    omega
  · cases h
    exact Nat.le_refl _

/-- The sign of an exponent, when there is one. -/
def exponentSign : List Char → List Char × List Char
  | '+' :: r => (['+'], r)
  | '-' :: r => (['-'], r)
  | s => ([], s)

theorem length_exponentSign (s : List Char) : (exponentSign s).2.length ≤ s.length := by
  unfold exponentSign
  split <;> simp

/-- The exponent of a number, when there is one. -/
def exponentPart : List Char → Option (List Char × List Char)
  | e :: r =>
    if e == 'e' || e == 'E' then
      let (sign, r') := exponentSign r
      (digitRun r').map fun (ds, q) => (e :: sign ++ ds, q)
    else some ([], e :: r)
  | [] => some ([], [])

theorem length_exponentPart {s ds r : List Char} (h : exponentPart s = some (ds, r)) :
    r.length ≤ s.length := by
  unfold exponentPart at h
  split at h
  · next e t =>
    split at h
    · obtain ⟨⟨ds', q⟩, hq, hr⟩ := Option.map_eq_some_iff.1 h
      cases hr
      have h1 : r.length < (exponentSign t).2.length := length_digitRun hq
      have h2 := length_exponentSign t
      simp only [List.length_cons]
      omega
    · cases h
      exact Nat.le_refl _
  · cases h
    exact Nat.le_refl _

/-- A number without its sign, and whether it has one. -/
def splitSign : List Char → Bool × List Char
  | '-' :: r => (true, r)
  | s => (false, s)

theorem length_splitSign (s : List Char) : (splitSign s).2.length ≤ s.length := by
  unfold splitSign
  split <;> simp

/-- A number. It is an integer when it has neither fraction nor exponent and is no negative
zero. -/
def number? (s : List Char) : Option (Json × List Char) := do
  let (negative, s) := splitSign s
  let (whole, s) ← wholePart s
  let (fraction, s) ← fractionPart s
  let (exponent, s) ← exponentPart s
  let size ← Text.number? 10 whole
  if fraction.isEmpty && exponent.isEmpty && !(negative && size == 0) then
    return (.integer (if negative then -(size : Int) else size), s)
  else
    let sign := if negative then ['-'] else []
    return (.real (String.ofList (sign ++ whole ++ fraction ++ exponent)), s)

theorem length_number? {s r : List Char} {v : Json} (h : number? s = some (v, r)) :
    r.length < s.length := by
  simp only [number?, Option.bind_eq_bind, Option.bind_eq_some_iff, Option.pure_def] at h
  obtain ⟨⟨whole, s₁⟩, h₁, ⟨fraction, s₂⟩, h₂, ⟨exponent, s₃⟩, h₃, size, _, h₄⟩ := h
  have hr : s₃ = r := by
    split at h₄ <;> cases h₄ <;> rfl
  have := length_splitSign s
  have := length_wholePart h₁
  have := length_fractionPart h₂
  have := length_exponentPart h₃
  subst hr
  simp only at *
  omega

/-- A word of the grammar and what it stands for. -/
def keyword? : List Char → Option (Json × List Char)
  | 'n' :: 'u' :: 'l' :: 'l' :: r => some (.null, r)
  | 't' :: 'r' :: 'u' :: 'e' :: r => some (.bool true, r)
  | 'f' :: 'a' :: 'l' :: 's' :: 'e' :: r => some (.bool false, r)
  | _ => none

theorem length_keyword? {s r : List Char} {v : Json} (h : keyword? s = some (v, r)) :
    r.length < s.length := by
  unfold keyword? at h
  split at h <;> cases h <;> simp only [List.length_cons] <;> omega

/-- A word or a number. -/
def atom? (s : List Char) : Option (Json × Rest s) :=
  match h : keyword? s with
  | some (v, r) => some (v, ⟨r, length_keyword? h⟩)
  | none =>
    match h' : number? s with
    | some (v, r) => some (v, ⟨r, length_number? h'⟩)
    | none => none

mutual

/-- The value at the front of a text that begins with no blank. -/
def value (s : List Char) : Option (Json × Rest s) :=
  match s with
  | '"' :: r => (stringBody (some []) r).map fun (t, q) =>
    (.string t, ⟨q.1, by have := q.2; simp; omega⟩)
  | '[' :: r =>
    match h : skipBlanks r with
    | ']' :: q => some (.array [], ⟨q, by
        have := length_skipBlanks_le r; simp [h] at this; simp; omega⟩)
    | [] => none
    | c :: q =>
      have := length_skipBlanks_le r
      (items (c :: q)).map fun (vs, t) =>
        (.array vs, ⟨t.1, by have := t.2; simp [h] at *; omega⟩)
  | '\x7b' :: r =>
    match h : skipBlanks r with
    | '\x7d' :: q => some (.object [], ⟨q, by
        have := length_skipBlanks_le r; simp [h] at this; simp; omega⟩)
    | [] => none
    | c :: q =>
      have := length_skipBlanks_le r
      (members (c :: q)).map fun (vs, t) =>
        (.object vs, ⟨t.1, by have := t.2; simp [h] at *; omega⟩)
  | s => atom? s
termination_by (s.length, 0)
decreasing_by all_goals
  have hl := length_skipBlanks_le r
  rw [h] at hl
  simp_wf
  simp at hl
  omega

/-- The items of an array from its first item to its closing bracket. -/
def items (s : List Char) : Option (List Json × Rest s) :=
  match value s with
  | none => none
  | some (v, r) =>
    match h : skipBlanks r.1 with
    | ']' :: q => some ([v], ⟨q, by
        have := length_skipBlanks_le r.1; have := r.2; simp [h] at *; omega⟩)
    | ',' :: q =>
      have := length_skipBlanks_le r.1
      have := length_skipBlanks_le q
      (items (skipBlanks q)).map fun (vs, t) =>
        (v :: vs, ⟨t.1, by have := t.2; have := r.2; simp [h] at *; omega⟩)
    | _ => none
termination_by (s.length, 1)
decreasing_by
  · right; simp
  · have h1 := length_skipBlanks_le r.1
    have h2 := length_skipBlanks_le q
    have h3 := r.2
    rw [h] at h1
    simp at h1
    omega

/-- The members of an object from its first name to its closing brace. -/
def members (s : List Char) : Option (List (Option String × Json) × Rest s) :=
  match s with
  | '"' :: s' =>
    match stringBody (some []) s' with
    | none => none
    | some (name, r) =>
      match h : skipBlanks r.1 with
      | ':' :: q =>
        have h1 := length_skipBlanks_le r.1
        have h2 := length_skipBlanks_le q
        have h3 := r.2
        match value (skipBlanks q) with
        | none => none
        | some (v, t) =>
          match h' : skipBlanks t.1 with
          | '\x7d' :: u => some ([(name, v)], ⟨u, by
              have := length_skipBlanks_le t.1; have := t.2; simp [h, h'] at *; omega⟩)
          | ',' :: u =>
            have := length_skipBlanks_le t.1
            have := length_skipBlanks_le u
            (members (skipBlanks u)).map fun (vs, w) =>
              ((name, v) :: vs, ⟨w.1, by have := w.2; have := t.2; simp [h, h'] at *; omega⟩)
          | _ => none
      | _ => none
  | _ => none
termination_by (s.length, 1)
decreasing_by
  · rw [h] at h1; simp at h1; simp_wf; omega
  · have h4 := length_skipBlanks_le t.1
    have h5 := length_skipBlanks_le u
    have h6 := t.2
    rw [h] at h1
    rw [h'] at h4
    simp at h1 h4
    simp_wf
    omega

end

/-- The value that a text spells, or nothing when it is no JSON text. -/
def parse? (s : String) : Option Json :=
  match value (skipBlanks s.toList) with
  | some (v, r) => if (skipBlanks r.1).isEmpty then some v else none
  | none => none

end ActionSheet.Json
