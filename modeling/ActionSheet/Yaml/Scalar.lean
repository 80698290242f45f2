import ActionSheet.Text.Decimal
import ActionSheet.Yaml.Cursor

/-!
# Scalars

A scalar may run over several lines. What its line breaks become depends on how it is written. In a
plain or quoted scalar the blanks around a break go, a single break becomes a space, and of several
breaks all but the first are kept. In a block scalar every line loses the indentation of the block;
a literal one keeps its breaks, a folded one joins the lines that begin with no blank, and a mark in
its header says what happens to the breaks at its end.
-/

namespace ActionSheet.Yaml

/-! ## Folding -/

/-- The blanks and breaks that were passed since the last character of a scalar. -/
structure Gap where
  /-- The blanks, most recent first, as long as no break was passed. -/
  blanks : List Char := []
  /-- Whether a break was passed. -/
  broken : Bool := false
  /-- What the first break becomes when it is not folded. -/
  first : List Char := []
  /-- What the breaks after the first become. -/
  later : List Char := []

namespace Gap

/-- Nothing was passed. -/
def none : Gap := {}

/-- The gap after a break that an escape takes out of the text. -/
def escapedBreak : Gap := { broken := true }

/-- Whether anything was passed. -/
def isSome (g : Gap) : Bool := g.broken || !g.blanks.isEmpty

/-- The gap with one more blank, which counts only before the first break. -/
def blank (g : Gap) (c : Char) : Gap :=
  if g.broken then g else { g with blanks := c :: g.blanks }

/-- The gap with one more break. -/
def lineBreak (g : Gap) (c : Char) : Gap :=
  if g.broken then { g with later := g.later ++ breakText c }
  else { broken := true, first := breakText c }

/-- The text that a gap becomes between two characters of a scalar. -/
def text (g : Gap) : List Char :=
  if !g.broken then g.blanks.reverse
  else if g.first = ['\n'] then (if g.later.isEmpty then [' '] else g.later)
  else g.first ++ g.later

end Gap

/-! ## Plain scalars -/

/-- The characters that mark the parts of a flow collection. -/
def isFlowMark (c : Char) : Bool :=
  c == ',' || c == '[' || c == ']' || c == '\x7b' || c == '\x7d'

/-- What a plain scalar goes on with: its text, whether a line break was passed behind its last
character, and the place behind it. `margin` is the column that its lines have to reach outside
flow collections; `acc` is the text so far, most recent first. -/
def plainFrom (flow : Bool) (margin : Nat) (c : Cursor) (gap : Gap) (acc : List Char) :
    Option (List Char × Bool × Cursor) :=
  match _h : c.rest with
  | [] => some (acc.reverse, gap.broken, c)
  | x :: r =>
    if isSpace x then
      if gap.broken && x == '\t' && c.column < margin then none
      else plainFrom flow margin c.advance (gap.blank x) acc
    else if isBreak x then plainFrom flow margin c.newLine (gap.lineBreak x) acc
    else if gap.isSome && (x == '#' || (c.column == 0 && atDocumentMark c.rest)
        || (!flow && c.column < margin)) then
      some (acc.reverse, gap.broken, c)
    else if flow && x == ':' && (r.head?.any fun y => isFlowMark y || y == '?') then none
    else if (x == ':' && atGap r) || (flow && isFlowMark x) then
      some (acc.reverse, gap.broken, c)
    else plainFrom flow margin c.advance Gap.none (x :: (gap.text.reverse ++ acc))
termination_by c.rest.length
decreasing_by
  all_goals first
    | exact Cursor.length_advance _h
    | exact Cursor.length_newLine _h

/-- A plain scalar, from its first character. -/
def plainScalar (flow : Bool) (margin : Nat) (c : Cursor) : Option (List Char × Bool × Cursor) :=
  plainFrom flow margin c Gap.none []

/-! ## Quoted scalars -/

/-- The character that an escape of one letter stands for. -/
def letterEscape? : Char → Option Char
  | '0' => some '\x00'
  | 'a' => some '\x07'
  | 'b' => some '\x08'
  | 't' => some '\t'
  | '\t' => some '\t'
  | 'n' => some '\n'
  | 'v' => some '\x0b'
  | 'f' => some '\x0c'
  | 'r' => some '\r'
  | 'e' => some '\x1b'
  | ' ' => some ' '
  | '"' => some '"'
  | '/' => some '/'
  | '\\' => some '\\'
  | 'N' => some '\u0085'
  | '_' => some '\u00a0'
  | 'L' => some '\u2028'
  | 'P' => some '\u2029'
  | _ => none

/-- How many hexadecimal digits follow the letter of an escape by number. -/
def escapeDigits : Char → Nat
  | 'x' => 2
  | 'u' => 4
  | 'U' => 8
  | _ => 0

/-- The character of an escape, from the letter behind its backslash, and the number of characters
that the letter and its digits take. -/
def escapedChar? : List Char → Option (Char × Nat)
  | [] => none
  | e :: r =>
    match letterEscape? e with
    | some x => some (x, 1)
    | none =>
      let n := escapeDigits e
      if n == 0 || r.length < n then none
      else (Text.number? 16 (r.take n)).bind fun v =>
        if v.isValidChar then some (Char.ofNat v, n + 1) else none

/-- What a quoted scalar goes on with: its text, and the place behind its closing mark. -/
def quotedFrom (double : Bool) (c : Cursor) (gap : Gap) (acc : List Char) :
    Option (List Char × Cursor) :=
  match _h : c.rest with
  | [] => none
  | x :: r =>
    if isSpace x then quotedFrom double c.advance (gap.blank x) acc
    else if isBreak x then quotedFrom double c.newLine (gap.lineBreak x) acc
    else if c.column == 0 && atDocumentMark c.rest then none
    else
      let acc := gap.text.reverse ++ acc
      if !double && x == '\'' then
        if r.head? == some '\'' then quotedFrom double (c.skip 2) Gap.none ('\'' :: acc)
        else some (acc.reverse, c.advance)
      else if double && x == '"' then some (acc.reverse, c.advance)
      else if double && x == '\\' then
        if r.head?.any isBreak then
          if c.advance.newLine.rest.length < c.rest.length then
            quotedFrom double c.advance.newLine Gap.escapedBreak acc
          else none
        else
          match escapedChar? r with
          | none => none
          | some (y, n) => quotedFrom double (c.skip (n + 1)) Gap.none (y :: acc)
      else quotedFrom double c.advance Gap.none (x :: acc)
termination_by c.rest.length
decreasing_by
  all_goals first
    | exact Cursor.length_skip _ _h
    | exact Cursor.length_newLine _h
    | assumption

/-- A quoted scalar, from its opening mark. -/
def quotedScalar (double : Bool) (c : Cursor) : Option (List Char × Cursor) :=
  quotedFrom double c.advance Gap.none []

/-! ## Block scalars -/

/-- What becomes of the line breaks at the end of a block scalar. -/
inductive Chomping where
  | strip
  | clip
  | keep
  deriving DecidableEq, Repr

/-- The chomping that a mark asks for. -/
def Chomping.ofChar? : Char → Option Chomping
  | '+' => some keep
  | '-' => some strip
  | _ => none

/-- The value of an indentation mark. -/
def indentMark? (c : Char) : Option Nat :=
  if c.isDigit then some (c.toNat - 48) else none

/-- The marks in the header of a block scalar, in either order, and how many there are. -/
def blockMarks : List Char → Chomping × Option Nat × Nat
  | [] => (.clip, none, 0)
  | x :: r =>
    match Chomping.ofChar? x, indentMark? x with
    | some k, _ =>
      match r.head?.bind indentMark? with
      | some n => (k, some n, 2)
      | none => (k, none, 1)
    | none, some n =>
      match r.head?.bind Chomping.ofChar? with
      | some k => (k, some n, 2)
      | none => (.clip, some n, 1)
    | none, none => (.clip, none, 0)

/-- A block scalar that is being read. -/
structure BlockText where
  literal : Bool
  /-- The least indentation that the block can have. -/
  least : Nat
  /-- The indentation of the block, once it is known. -/
  indent : Option Nat
  /-- The deepest column reached in front of the first line. -/
  deepest : Nat := 0
  /-- Whether the place is inside a line of the block, and not in front of one. -/
  inLine : Bool := false
  /-- The text so far, most recent first. -/
  text : List Char := []
  /-- The break at the end of the last line. -/
  first : List Char := []
  /-- The breaks of the empty lines behind it. -/
  later : List Char := []
  /-- Whether the last line began with a blank. -/
  beganBlank : Bool := false

namespace BlockText

/-- Whether a column lies in front of the block. -/
def isIndentation (b : BlockText) (column : Nat) : Bool :=
  match b.indent with
  | none => true
  | some n => column < n

/-- The indentation of the block, seen from its first line. -/
def settled (b : BlockText) : Nat :=
  b.indent.getD (max b.deepest b.least)

/-- The block with a line begun by a character. -/
def beginLine (b : BlockText) (x : Char) : BlockText :=
  let blank := isSpace x
  let joined :=
    if !b.literal && b.first == ['\n'] && !b.beganBlank && !blank then
      (if b.later.isEmpty then [' '] else [])
    else b.first
  { b with
    indent := some b.settled
    inLine := true
    text := x :: ((joined ++ b.later).reverse ++ b.text)
    first := []
    later := []
    beganBlank := blank }

/-- What a block scalar goes on with: the block at its end, and the place behind it. -/
def readFrom (b : BlockText) (c : Cursor) : Option (BlockText × Cursor) :=
  match _h : c.rest with
  | [] => some (b, c)
  | x :: _ =>
    if b.inLine then
      if isBreak x then
        readFrom { b with inLine := false, first := breakText x } c.newLine
      else readFrom { b with text := x :: b.text } c.advance
    else if b.isIndentation c.column && x == ' ' then
      readFrom { b with deepest := max b.deepest (c.column + 1) } c.advance
    else if b.isIndentation c.column && x == '\t' then none
    else if isBreak x then
      readFrom { b with later := b.later ++ breakText x } c.newLine
    else if c.column == b.settled then readFrom (b.beginLine x) c.advance
    else some (b, c)
termination_by c.rest.length
decreasing_by
  all_goals first
    | exact Cursor.length_advance _h
    | exact Cursor.length_newLine _h

/-- The text of a block scalar at its end. -/
def chomped (b : BlockText) : Chomping → List Char
  | .strip => b.text.reverse
  | .clip => b.text.reverse ++ b.first
  | .keep => b.text.reverse ++ b.first ++ b.later

end BlockText

/-- A block scalar, from the mark that says which kind it is. `margin` is one more than the
indentation of the block collection around it; an indentation of zero is none. -/
def blockScalar (literal : Bool) (margin : Nat) (c : Cursor) : Option (List Char × Cursor) := do
  let (chomping, mark, marks) := blockMarks (c.rest.drop 1)
  guard (mark != some 0)
  let c := (c.skip (1 + marks)).skipWhile isSpace
  let c := if c.rest.head? == some '#' then c.skipWhile (!isBreak ·) else c
  let c ← match c.rest with
    | [] => some c
    | x :: _ => if isBreak x then some c.newLine else none
  let indent := mark.map fun n => if margin == 0 then n else margin - 1 + n
  let (b, c) ← BlockText.readFrom { literal, least := max margin 1, indent } c
  return (b.chomped chomping, c)

end ActionSheet.Yaml
