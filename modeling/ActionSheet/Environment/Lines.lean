import ActionSheet.Text.Blank

/-!
# Logical lines

In a file of assignments a line break inside quotation marks, or behind a backslash, belongs to the
value, so one logical line can take several lines of the file. `Quoting` is what has to be known at
a line break to tell. A hash begins a comment when one blank stands in front of it; a second blank
takes the first one back.
-/

namespace ActionSheet.Environment

/-- Where a character of a line stands. -/
inductive Quoting where
  | bare
  /-- Behind a blank. -/
  | blank
  /-- Behind a backslash. -/
  | escaped
  /-- Between double quotation marks. -/
  | double
  | doubleEscaped
  /-- Between single quotation marks. -/
  | single
  | singleEscaped
  deriving DecidableEq, Repr

/-- What a character outside of quotation marks leads to, but for blanks. -/
def Quoting.opened : Char → Quoting
  | '\\' => .escaped
  | '"' => .double
  | '\'' => .single
  | _ => .bare

/-- Where the next character stands. -/
def Quoting.next : Quoting → Char → Quoting
  | .bare, c =>
    if Text.isWhite c && c != '\n' && c != '\r' then .blank else opened c
  | .blank, c => opened c
  | .escaped, _ => .bare
  | .double, c => if c = '\\' then .doubleEscaped else if c = '"' then .bare else .double
  | .doubleEscaped, _ => .double
  | .single, c => if c = '\\' then .singleEscaped else if c = '\'' then .bare else .single
  | .singleEscaped, _ => .single

/-- How a line of the file ends. -/
inductive LineEnd where
  /-- In a comment, behind the given characters. -/
  | comment (before : List Char)
  /-- At its break. -/
  | atBreak (q : Quoting)

/-- The end of a line, from where its first character stands. -/
def lineEnd (q : Quoting) : List Char → LineEnd
  | [] => .atBreak q
  | c :: r =>
    if q = .blank ∧ c = '#' then .comment []
    else
      match lineEnd (q.next c) r with
      | .comment before => .comment (c :: before)
      | e => e

/-- Whether nothing but a comment is on a line. -/
def isComment (line : List Char) : Bool :=
  (line.dropWhile Text.isWhite).head? == some '#'

/-- The logical lines of the lines of a file, each with its break. One that is still open at the end
of the file is none. -/
def logicalLines (q : Quoting) (before : List Char) : List (List Char) → List (List Char)
  | [] => []
  | line :: rest =>
    if isComment (before ++ line) then logicalLines .bare [] rest
    else
      match lineEnd q line with
      | .comment part => (before ++ part) :: logicalLines .bare [] rest
      | .atBreak .bare => (before ++ line) :: logicalLines .bare [] rest
      | .atBreak q' => logicalLines q' (before ++ line) rest

/-- The lines of some bytes, each with its break. -/
def byteLines : List UInt8 → List (List UInt8)
  | [] => []
  | b :: r =>
    if b = 10 then [b] :: byteLines r
    else
      match byteLines r with
      | [] => [[b]]
      | line :: rest => (b :: line) :: rest

/-- The lines of a file up to the first that is not text, a byte order mark aside. -/
def textLines (bytes : ByteArray) : List (List Char) :=
  let all := bytes.data.toList
  let all := if [0xef, 0xbb, 0xbf].isPrefixOf all then all.drop 3 else all
  let lines := (byteLines all).map fun line => String.fromUTF8? ⟨line.toArray⟩
  (lines.takeWhile Option.isSome).filterMap fun line => line.map String.toList

end ActionSheet.Environment
