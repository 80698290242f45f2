import ActionSheet.Text.Decimal
import ActionSheet.Yaml.Cursor
import ActionSheet.Yaml.Token

/-!
# Names, tags and directives

The tokens that say something about a node or a document rather than being one: anchors and
aliases, tags with their handles, and the two directives. A tag is kept in its two parts, because
what its handle stands for is known only where the document begins. Each part ends in front of the
first NUL character that an escape puts into it.
-/

namespace ActionSheet.Yaml

/-- A name, from the mark in front of it, and the place behind it. -/
def wordName (c : Cursor) : Option (String × Cursor) :=
  let name := (c.rest.drop 1).takeWhile isWordChar
  let c := c.skip (name.length + 1)
  let ends := match c.rest with
    | [] => true
    | x :: _ => atGap c.rest || "?:,]\x7d%@`".toList.contains x
  if name.isEmpty || !ends then none else some (String.ofList name, c)

/-- The characters of a tag that stand for themselves. The marks of flow collections are among them
only inside angle brackets and directives. -/
def isTagChar (verbatim : Bool) (c : Char) : Bool :=
  isWordChar c || ";/?:@&=+$.!~*'()".toList.contains c || (verbatim && ",[]".toList.contains c)

/-- The octet of an escape in a tag, and what follows it. -/
def octet? : List Char → Option (Nat × List Char)
  | '%' :: a :: b :: r => (Text.number? 16 [a, b]).map (·, r)
  | _ => none

/-- How many octets a character takes, by the first of them. -/
def octetCount? (first : Nat) : Option Nat :=
  if first < 0x80 then some 1
  else if 0xc0 ≤ first && first < 0xe0 then some 2
  else if 0xe0 ≤ first && first < 0xf0 then some 3
  else if 0xf0 ≤ first && first < 0xf8 then some 4
  else none

/-- A number of octets that go on with a character, and what follows them. -/
def moreOctets? : Nat → List Char → Option (List Nat × List Char)
  | 0, s => some ([], s)
  | n + 1, s => do
    let (o, r) ← octet? s
    if o < 0x80 || 0xc0 ≤ o then none
    else
      let (os, r) ← moreOctets? n r
      return (o :: os, r)

/-- The octets of one escaped character, and what follows them. -/
def escapedOctets? (s : List Char) : Option (List Nat × List Char) := do
  let (first, r) ← octet? s
  let n ← octetCount? first
  let (os, r) ← moreOctets? (n - 1) r
  return (first :: os, r)

/-- The text of a tag, most recent first in `acc`, and what follows it. Octets that were escaped
stand for themselves. -/
def tagText (verbatim : Bool) (s : List Char) (acc : List Char) :
    Option (List Char × List Char) :=
  match s with
  | [] => some (acc.reverse, [])
  | x :: r =>
    if x == '%' then
      match escapedOctets? (x :: r) with
      | none => none
      | some (os, r') =>
        if r'.length < (x :: r).length then
          tagText verbatim r' ((os.map Char.ofNat).reverse ++ acc)
        else none
    else if isTagChar verbatim x then tagText verbatim r (x :: acc)
    else some (acc.reverse, x :: r)
termination_by s.length
decreasing_by
  all_goals first
    | assumption
    | simp

/-- What counts of a part of a tag. -/
def tagPart (text : List Char) : String :=
  String.ofList (text.takeWhile (· != '\x00'))

/-- The handle at the front of a tag, and what follows it: an exclamation mark, word characters,
and a second mark if there is one. -/
def tagHandle? : List Char → Option (List Char × List Char)
  | '!' :: r =>
    let word := r.takeWhile isWordChar
    match r.dropWhile isWordChar with
    | '!' :: r' => some ('!' :: word ++ ['!'], r')
    | r' => some ('!' :: word, r')
  | _ => none

/-- A tag between angle brackets, from its `!<`. -/
def verbatimTag? (s : List Char) : Option (Token × List Char) := do
  let (text, r) ← tagText true (s.drop 2) []
  match r with
  | '>' :: r => if text.isEmpty then none else return (.tag "" (tagPart text), r)
  | _ => none

/-- A tag with a handle. A single exclamation mark is a tag of its own; a handle without a second
mark is the beginning of a local tag. What follows a handle must not be empty as it is written. -/
def shorthandTag? (s : List Char) : Option (Token × List Char) := do
  let (handle, r) ← tagHandle? s
  let (text, r) ← tagText false r []
  if 2 ≤ handle.length && handle.getLast? == some '!' then
    if text.isEmpty then none
    else return (.tag (String.ofList handle) (tagPart text), r)
  else
    let suffix := tagPart (handle.drop 1 ++ text)
    if suffix.isEmpty then return (.tag "" "!", r) else return (.tag "!" suffix, r)

/-- A tag, from its exclamation mark, and the place behind it. -/
def tagToken (flow : Bool) (c : Cursor) : Option (Token × Cursor) := do
  let (t, r) ← match c.rest with
    | _ :: '<' :: _ => verbatimTag? c.rest
    | _ => shorthandTag? c.rest
  if atGap r || (flow && r.head? == some ',') then
    return (t, c.skip (c.rest.length - r.length))
  else none

/-- A number in the version directive, which has at most nine digits. -/
def versionNumber? (s : List Char) : Option (Nat × List Char) :=
  let ds := s.takeWhile Char.isDigit
  if 9 < ds.length then none
  else (Text.number? 10 ds).map (·, s.dropWhile Char.isDigit)

/-- What follows the name of a version directive. -/
def versionDirective? (s : List Char) : Option (Token × List Char) := do
  let (major, r) ← versionNumber? (s.dropWhile isSpace)
  match r with
  | '.' :: r =>
    let (minor, r) ← versionNumber? r
    return (.version major minor, r)
  | _ => none

/-- What follows the name of a directive for tags. -/
def tagDirective? (s : List Char) : Option (Token × List Char) := do
  let (handle, r) ← tagHandle? (s.dropWhile isSpace)
  if handle != ['!'] && handle.getLast? != some '!' then none
  else
    match r with
    | [] => none
    | x :: _ =>
      if !isSpace x then none
      else
        let (text, r) ← tagText true (r.dropWhile isSpace) []
        if text.isEmpty || !atGap r then none
        else return (.tagHandle (String.ofList handle) (tagPart text), r)

/-- A directive, from its percent sign, and the place behind its line. -/
def directive (c : Cursor) : Option (Token × Cursor) := do
  let name := (c.rest.drop 1).takeWhile isWordChar
  let r := c.rest.drop (name.length + 1)
  if name.isEmpty || !atGap r then none
  else
    let (t, r) ←
      if name == "YAML".toList then versionDirective? r
      else if name == "TAG".toList then tagDirective? r
      else none
    let c := (c.skip (c.rest.length - r.length)).skipWhile isSpace
    let c := if c.rest.head? == some '#' then c.skipWhile (!isBreak ·) else c
    match c.rest with
    | [] => return (t, c)
    | x :: _ => if isBreak x then return (t, c.newLine) else none

end ActionSheet.Yaml
