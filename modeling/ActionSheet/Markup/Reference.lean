import ActionSheet.Markup.Fault
import ActionSheet.Text.Utf8

/-!
# References

Inside a value a character can be written as a reference: by one of five names, or by its number in
decimal or hexadecimal. `expand` replaces every reference by its character and leaves everything
else alone; blanks in particular stay as they are, and nothing is expanded twice.
-/

namespace ActionSheet.Markup

open Text

/-- The character that a name stands for. -/
def namedCharacter? (name : List Char) : Option Char :=
  if name = "lt".toList then some '<'
  else if name = "gt".toList then some '>'
  else if name = "amp".toList then some '&'
  else if name = "apos".toList then some '\''
  else if name = "quot".toList then some '"'
  else none

/-- Numbers have thirty-two bits. -/
def numberLimit : Nat := 0x100000000

/-- The number that digits go on to, from the one that the digits before them stand for. The first
digit that is none, or is one too many, decides. -/
def digitsValue (base : Nat) : Nat → List Char → Except ReferenceFault Nat
  | n, [] => .ok n
  | n, c :: r =>
    match digitValue? base c with
    | none => .error .badDigit
    | some d =>
      if n * base + d < numberLimit then digitsValue base (n * base + d) r else .error .tooLarge

/-- The number that digits stand for. -/
def characterNumber (base : Nat) (s : List Char) : Except ReferenceFault Nat :=
  if s.head? = some '+' ∨ s.head? = some '-' then .error .signedNumber
  else if s.isEmpty then .error .emptyNumber
  else digitsValue base 0 s

/-- The character of a number; there is none for zero, for half a surrogate pair, or beyond the
last code point. -/
def characterOf (n : Nat) : Except ReferenceFault Char :=
  if n = 0 then .error .zero
  else if n.isValidChar then .ok (Char.ofNat n)
  else .error (.noCharacter n)

/-- The character of a reference by number, from what follows its `#`. -/
def numberedCharacter : List Char → Except ReferenceFault Char
  | 'x' :: r => (characterNumber 16 r).bind characterOf
  | s => (characterNumber 10 s).bind characterOf

/-- The character of a reference, from what stands between its ampersand and its semicolon and
begins at an offset of the value. -/
def referencedCharacter (offset : Nat) (s : List Char) : Except ReferenceFault Char :=
  match s with
  | '#' :: r => numberedCharacter r
  | _ =>
    match namedCharacter? s with
    | some c => .ok c
    | none => .error (.unknown offset (offset + byteLength s) (String.ofList s))

/-- The characters up to the next ampersand or semicolon. -/
def referenceBody : List Char → List Char :=
  List.takeWhile fun c => c ≠ '&' && c ≠ ';'

/-- What begins with the next ampersand or semicolon. -/
def referenceTail : List Char → List Char :=
  List.dropWhile fun c => c ≠ '&' && c ≠ ';'

theorem length_referenceTail_le (s : List Char) : (referenceTail s).length ≤ s.length :=
  List.IsSuffix.length_le (List.dropWhile_suffix _)

/-- The rest of a value from an offset on, with its references expanded; `size` is the length of
the whole value. -/
def expandFrom (size offset : Nat) (s : List Char) : Except ReferenceFault (List Char) :=
  match s with
  | [] => .ok []
  | c :: r =>
    if c = '&' then
      match h : referenceTail r with
      | ';' :: rest => do
        let x ← referencedCharacter (offset + 1) (referenceBody r)
        let xs ← expandFrom size (offset + 1 + byteLength (referenceBody r) + 1) rest
        return x :: xs
      | _ => .error (.unterminated offset size)
    else do
      let xs ← expandFrom size (offset + c.utf8Size) r
      return c :: xs
termination_by s.length
decreasing_by
  · have hr := length_referenceTail_le r
    rw [h] at hr
    simp only [List.length_cons] at hr ⊢
    omega
  · simp

/-- A value with its references expanded. -/
def expand (value : List Char) : Except ReferenceFault (List Char) :=
  expandFrom (byteLength value) 0 value

end ActionSheet.Markup
