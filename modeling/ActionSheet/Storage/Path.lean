import ActionSheet.Text.Utf8

/-!
# Paths

A path is parts between slashes. A part that is empty or a single dot leads nowhere else, so what a
path names is decided by the parts that remain; but the last part still matters, because a path that
ends in one of those asks for a folder.
-/

namespace ActionSheet.Storage

/-- The parts of a path, between its slashes. -/
def parts : List Char → List (List Char)
  | [] => [[]]
  | c :: r =>
    if c = '/' then [] :: parts r
    else
      match parts r with
      | [] => [[c]]
      | p :: ps => (c :: p) :: ps

/-- Whether a part of a path leads somewhere. -/
def isStep (part : List Char) : Bool :=
  part != [] && part != ['.']

/-- The name of what a path leads to, unless it leads upwards or nowhere. -/
def fileName? (path : String) : Option (List Char) :=
  ((parts path.toList).filter isStep).getLast?.filter (· != ['.', '.'])

/-- What stands behind the last dot of a name. A name that begins with its only dot has no
extension. -/
def extension? (name : List Char) : Option (List Char) :=
  match name.reverse.dropWhile (· != '.') with
  | [] | [_] => none
  | _ => some (name.reverse.takeWhile (· != '.')).reverse

/-- The longest name that a file can have, in bytes. -/
def longestName : Nat := 255

/-- The longest path that leads anywhere, in bytes. -/
def longestPath : Nat := 4095

/-- The name of the file that a path leads to from inside a folder, without leaving it or passing
through another folder. -/
def nameInside? (path : String) : Option String :=
  let ps := parts path.toList
  match ps.filter isStep with
  | [name] =>
    if ps.head? ≠ some [] ∧ ps.getLast? = some name ∧ name ≠ ['.', '.']
        ∧ Text.byteLength name ≤ longestName
        ∧ Text.byteLength path.toList ≤ longestPath then
      some (String.ofList name)
    else none
  | _ => none

/-- Whether a path leads to the null device, which is always empty and keeps nothing. -/
def isNullDevice (path : String) : Bool :=
  let ps := parts path.toList
  ps.head? == some [] && ps.getLast? == some "null".toList
    && ps.filter isStep == ["dev".toList, "null".toList]

end ActionSheet.Storage
