/-!
# Blank characters

Four readings of "blank" meet in this library, and they differ at the edges: what separates the
parts of a tag, what may stand outside the root element, what a file of settings may be full of
and still be empty, and what separates the parts of a line of variables. Each is named once here,
and the wider ones are stated through the narrower.
-/

namespace ActionSheet.Text

/-- Space, tab, line feed or carriage return: what separates the parts of a tag, and the tokens of
a JSON text. -/
def isBlank (c : Char) : Bool :=
  c == ' ' || c == '\t' || c == '\n' || c == '\r'

/-- Blank, or a form feed: what may stand outside the root element of a document. -/
def isAsciiBlank (c : Char) : Bool :=
  isBlank c || c == '\x0c'

/-- The Unicode property White_Space. -/
def isWhite (c : Char) : Bool :=
  let n := c.toNat
  (0x09 ≤ n && n ≤ 0x0d) || n == 0x20 || n == 0x85 || n == 0xa0 || n == 0x1680
    || (0x2000 ≤ n && n ≤ 0x200a) || n == 0x2028 || n == 0x2029 || n == 0x202f || n == 0x205f
    || n == 0x3000

/-- What is left when the characters of a class are taken off the end. -/
def trimEnd (p : Char → Bool) (s : List Char) : List Char :=
  (s.reverse.dropWhile p).reverse

end ActionSheet.Text
