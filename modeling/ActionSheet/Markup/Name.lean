import ActionSheet.Text.Blank

/-!
# Names

A name has an optional prefix, which ends at the first colon, and a local part, which is the rest.
Both may be empty, and the local part may hold colons of its own.
-/

namespace ActionSheet.Markup

/-- A name in its two parts. -/
structure Name where
  pre : Option (List Char)
  part : List Char
  deriving DecidableEq, Repr

/-- The parts of a name. -/
def Name.ofChars (s : List Char) : Name :=
  match s.dropWhile (· ≠ ':') with
  | [] => ⟨none, s⟩
  | _ :: r => ⟨some (s.takeWhile (· ≠ ':')), r⟩

/-- The name at the front of a tag, up to the first blank. -/
def tagName (tag : List Char) : List Char :=
  tag.takeWhile (!Text.isBlank ·)

/-- What follows the name at the front of a tag. -/
def tagRest (tag : List Char) : List Char :=
  tag.dropWhile (!Text.isBlank ·)

end ActionSheet.Markup
