import ActionSheet.Text.Utf8

/-!
# Places in a YAML text

Where a character stands matters in YAML: its column decides what it belongs to, and a key has to
be short and on one line. A cursor is what is left of the text together with the place of its first
character: the bytes in front of it, its line, and the characters in front of it on that line. It
moves over one character, or over one line break; a carriage return and a line feed together are
one break.
-/

namespace ActionSheet.Yaml

/-- Whether a character may stand in a YAML text at all. -/
def isPrintable (c : Char) : Bool :=
  let n := c.toNat
  n == 0x09 || n == 0x0a || n == 0x0d || (0x20 ≤ n && n ≤ 0x7e) || n == 0x85
    || (0xa0 ≤ n && n ≤ 0xd7ff) || (0xe000 ≤ n && n ≤ 0xfffd) || 0x10000 ≤ n

/-- The byte order mark, which is a character like others except at the beginning of a line. -/
def byteOrderMark : Char := '\uFEFF'

/-- Space or tab. -/
def isSpace (c : Char) : Bool := c == ' ' || c == '\t'

/-- A character that ends a line: carriage return, line feed, next line, or one of the two
separators. -/
def isBreak (c : Char) : Bool :=
  c == '\n' || c == '\r' || c == '\u0085' || c == '\u2028' || c == '\u2029'

/-- What a line break becomes inside a text: a line feed, except that the two separators stay. -/
def breakText (c : Char) : List Char :=
  if c == '\u2028' || c == '\u2029' then [c] else ['\n']

/-- A letter or digit of ASCII, an underscore or a hyphen: what names are made of. -/
def isWordChar (c : Char) : Bool :=
  c.isAlphanum || c == '_' || c == '-'

/-- Whether a text begins with a space, a tab or a line break, or is over. -/
def atGap : List Char → Bool
  | [] => true
  | c :: _ => isSpace c || isBreak c

/-- Whether a text begins with the mark between two documents. -/
def atDocumentMark : List Char → Bool
  | '-' :: '-' :: '-' :: r => atGap r
  | '.' :: '.' :: '.' :: r => atGap r
  | _ => false

/-- What is left of a text, and the place of its first character. -/
structure Cursor where
  rest : List Char
  /-- How many bytes are in front of it. -/
  index : Nat := 0
  line : Nat := 0
  column : Nat := 0

namespace Cursor

/-- The place behind a number of characters of the same line. -/
def skip (c : Cursor) (n : Nat) : Cursor :=
  { c with
    rest := c.rest.drop n
    index := c.index + Text.byteLength (c.rest.take n)
    column := c.column + n }

/-- The place behind one character. -/
def advance (c : Cursor) : Cursor := c.skip 1

/-- How many characters the line break at the front of a text takes. -/
def breakWidth : List Char → Nat
  | '\r' :: '\n' :: _ => 2
  | _ => 1

/-- The place behind a line break. -/
def newLine (c : Cursor) : Cursor :=
  let n := breakWidth c.rest
  { rest := c.rest.drop n
    index := c.index + Text.byteLength (c.rest.take n)
    line := c.line + 1
    column := 0 }

/-- The place behind the characters of a class. -/
def skipWhile (c : Cursor) (p : Char → Bool) : Cursor :=
  c.skip (c.rest.takeWhile p).length

theorem length_skip {c : Cursor} {x : Char} {r : List Char} (n : Nat) (h : c.rest = x :: r) :
    (c.skip (n + 1)).rest.length < c.rest.length := by
  simp only [skip, h, List.drop_succ_cons, List.length_drop, List.length_cons]
  omega

theorem length_advance {c : Cursor} {x : Char} {r : List Char} (h : c.rest = x :: r) :
    c.advance.rest.length < c.rest.length :=
  length_skip 0 h

theorem length_newLine {c : Cursor} {x : Char} {r : List Char} (h : c.rest = x :: r) :
    c.newLine.rest.length < c.rest.length := by
  have hw : 0 < breakWidth c.rest := by
    unfold breakWidth
    split <;> decide
  simp [newLine, h] at hw ⊢
  omega

end Cursor

end ActionSheet.Yaml
