import ActionSheet.Yaml.Scalar
import ActionSheet.Yaml.Tag

/-!
# From lines to tokens

Two things in YAML are known only later than they are needed. That a block collection has ended is
seen at the next token, from its column; and that something was a key is seen at the colon behind
it. The layout keeps what is needed for both: the columns of the block collections that are open,
and, for every level of flow collections, the place at which a key may have begun. When the colon
comes, the tokens that say so are put in at that place.

A key that has no mark of its own has to stand on one line and within 1024 bytes. Where nothing but
a key can stand, it is an error when the colon does not come.
-/

namespace ActionSheet.Yaml

/-- A place at which a key may have begun. -/
structure KeyStart where
  /-- Whether nothing but a key can stand there. -/
  required : Bool
  /-- How many tokens are in front of it. -/
  token : Nat
  index : Nat
  line : Nat
  column : Nat

/-- The state of the layout at a place of the text. -/
structure Layout where
  cursor : Cursor
  tokens : Array Token := #[]
  /-- The columns of the open block collections, the innermost first. -/
  blocks : List Nat := []
  /-- The place at which a key may have begun, inside the innermost flow collection or outside all
  of them. -/
  candidate : Option KeyStart := none
  /-- The same for the levels around it, the innermost first. -/
  outer : List (Option KeyStart) := []
  /-- Whether a key may begin at this place. -/
  keyAllowed : Bool := true

namespace Layout

/-- Whether the place is inside a flow collection. -/
def inFlow (l : Layout) : Bool := !l.outer.isEmpty

/-- One more than the column of the innermost block collection. -/
def margin (l : Layout) : Nat :=
  match l.blocks with
  | [] => 0
  | n :: _ => n + 1

/-- The layout with a token added. -/
def push (l : Layout) (t : Token) : Layout :=
  { l with tokens := l.tokens.push t }

/-- The layout with a token added, and the place behind it. -/
def pushAt (l : Layout) (t : Token) (c : Cursor) : Layout :=
  { l with tokens := l.tokens.push t, cursor := c }

/-- The block collections of a column or further right are closed. -/
def closeFrom (l : Layout) (column : Nat) : Layout :=
  if l.inFlow then l
  else
    let closing := l.blocks.takeWhile (column ≤ ·)
    { l with
      blocks := l.blocks.dropWhile (column ≤ ·)
      tokens := closing.foldl (fun ts _ => ts.push .blockEnd) l.tokens }

/-- A block collection is opened at a column, unless one is open there already; its token goes to
the given place. -/
def openBlock (l : Layout) (column position : Nat) (t : Token) : Layout :=
  if l.inFlow || column < l.margin then l
  else { l with blocks := column :: l.blocks, tokens := l.tokens.insertIdxIfInBounds position t }

/-- A key that may have begun here is given up. -/
def dropCandidate (l : Layout) : Option Layout :=
  match l.candidate with
  | none => some l
  | some k => if k.required then none else some { l with candidate := none }

/-- A key may begin here, if one is allowed to. -/
def noteCandidate (l : Layout) : Option Layout :=
  if !l.keyAllowed then some l
  else do
    let l ← l.dropCandidate
    let c := l.cursor
    return { l with
      candidate := some {
        required := !l.inFlow && l.blocks.head? == some c.column
        token := l.tokens.size
        index := c.index
        line := c.line
        column := c.column } }

/-- How far back a key may have begun, in bytes. -/
def keyReach : Nat := 1024

/-- A place at which a key may have begun, unless it is too far back; nothing when it had to be a
key. -/
def refresh (c : Cursor) : Option KeyStart → Option (Option KeyStart)
  | none => some none
  | some k =>
    if k.line < c.line || k.index + keyReach < c.index then
      if k.required then none else some none
    else some (some k)

/-- The layout with all places given up that are too far back. -/
def dropStale (l : Layout) : Option Layout := do
  let candidate ← refresh l.cursor l.candidate
  let outer ← l.outer.mapM (refresh l.cursor)
  return { l with candidate, outer }

/-- The place of the next token, and whether a key may begin there. Blanks, comments and line
breaks are passed; a tab only where no indentation is meant, and a byte order mark only at the
beginning of a line, of which it takes the first column. -/
def seek (flow comment allowed : Bool) (c : Cursor) : Cursor × Bool :=
  match _h : c.rest with
  | [] => (c, allowed)
  | x :: _ =>
    if isBreak x then seek flow false (allowed || !flow) c.newLine
    else if comment || x == ' ' || (x == '\t' && (flow || !allowed))
        || (x == byteOrderMark && c.column == 0) then
      seek flow comment allowed c.advance
    else if x == '#' then seek flow true allowed c.advance
    else (c, allowed)
termination_by c.rest.length
decreasing_by
  all_goals first
    | exact Cursor.length_advance _h
    | exact Cursor.length_newLine _h

/-- The tokens of a mark that stands outside every collection. -/
def outsideMark (l : Layout) (t : Token) (c : Cursor) : Option Layout := do
  let l ← (l.closeFrom 0).dropCandidate
  return { l.pushAt t c with keyAllowed := false }

/-- A flow collection opens. -/
def openFlow (l : Layout) (t : Token) : Option Layout := do
  let l ← l.noteCandidate
  return { l.pushAt t l.cursor.advance with
    candidate := none, outer := l.candidate :: l.outer, keyAllowed := true }

/-- A flow collection closes. -/
def closeFlow (l : Layout) (t : Token) : Option Layout := do
  let l ← l.dropCandidate
  let l := { l.pushAt t l.cursor.advance with keyAllowed := false }
  match l.outer with
  | [] => return l
  | k :: rest => return { l with candidate := k, outer := rest }

/-- A comma between the parts of a flow collection. -/
def flowEntry (l : Layout) : Option Layout := do
  let l ← l.dropCandidate
  return { l.pushAt .flowEntry l.cursor.advance with keyAllowed := true }

/-- The mark in front of an entry of a block sequence. -/
def blockEntry (l : Layout) : Option Layout := do
  if !l.inFlow && !l.keyAllowed then none
  else
    let l ← (l.openBlock l.cursor.column l.tokens.size .blockSequence).dropCandidate
    return { l.pushAt .blockEntry l.cursor.advance with keyAllowed := true }

/-- The mark in front of a key. -/
def keyMark (l : Layout) : Option Layout := do
  if !l.inFlow && !l.keyAllowed then none
  else
    let keyAllowed := !l.inFlow
    let l ← (l.openBlock l.cursor.column l.tokens.size .blockMapping).dropCandidate
    return { l.pushAt .key l.cursor.advance with keyAllowed }

/-- The mark in front of a value. If a key may have begun, it did. -/
def valueMark (l : Layout) : Option Layout :=
  match l.candidate with
  | some k =>
    let l := { l with tokens := l.tokens.insertIdxIfInBounds k.token .key, candidate := none }
    let l := l.openBlock k.column k.token .blockMapping
    some { l.pushAt .value l.cursor.advance with keyAllowed := false }
  | none =>
    if !l.inFlow && !l.keyAllowed then none
    else
      let keyAllowed := !l.inFlow
      let l := l.openBlock l.cursor.column l.tokens.size .blockMapping
      some { l.pushAt .value l.cursor.advance with keyAllowed }

/-- A token that says something about the node behind it, or stands for a node. -/
def property (l : Layout) (t : Token) (c : Cursor) : Option Layout := do
  let l ← l.noteCandidate
  return { l.pushAt t c with keyAllowed := false }

/-- A block scalar. -/
def blockText (l : Layout) (literal : Bool) : Option Layout := do
  let l ← l.dropCandidate
  let (text, c) ← blockScalar literal l.margin l.cursor
  let style := if literal then Style.literal else Style.folded
  return { l.pushAt (.scalar (String.ofList text) style) c with keyAllowed := true }

/-- A quoted scalar. -/
def quotedText (l : Layout) (double : Bool) : Option Layout := do
  let l ← l.noteCandidate
  let (text, c) ← quotedScalar double l.cursor
  let style := if double then Style.doubleQuoted else Style.singleQuoted
  return { l.pushAt (.scalar (String.ofList text) style) c with keyAllowed := false }

/-- A plain scalar. After one that ends with a line break a key may begin. -/
def plainText (l : Layout) : Option Layout := do
  let l ← l.noteCandidate
  let (text, broken, c) ← plainScalar l.inFlow l.margin l.cursor
  return { l.pushAt (.scalar (String.ofList text) .plain) c with keyAllowed := broken }

/-- Whether a plain scalar can begin with a character, given what follows it. -/
def beginsPlain (flow : Bool) (c : Char) (r : List Char) : Bool :=
  !(isSpace c || isBreak c || "-?:,[]\x7b\x7d#&*!|>'\"%@`".toList.contains c)
    || (c == '-' && !(r.head?.any isSpace))
    || (!flow && (c == '?' || c == ':') && !atGap r)

/-- The layout behind the token at its place. -/
def fetch (l : Layout) : Option Layout :=
  let c := l.cursor
  match c.rest with
  | [] => some l
  | x :: r =>
    if c.column == 0 && x == '%' then do
      let (t, c') ← directive c
      l.outsideMark t c'
    else if c.column == 0 && atDocumentMark c.rest then
      l.outsideMark (if x == '-' then .documentStart else .documentEnd) (c.skip 3)
    else if x == '[' then l.openFlow .flowSequence
    else if x == '\x7b' then l.openFlow .flowMapping
    else if x == ']' then l.closeFlow .flowSequenceEnd
    else if x == '\x7d' then l.closeFlow .flowMappingEnd
    else if x == ',' then l.flowEntry
    else if x == '-' && atGap r then l.blockEntry
    else if x == '?' && (l.inFlow || atGap r) then l.keyMark
    else if x == ':' && (l.inFlow || atGap r) then l.valueMark
    else if x == '*' then do
      let (name, c') ← wordName c
      l.property (.alias name) c'
    else if x == '&' then do
      let (name, c') ← wordName c
      l.property (.anchor name) c'
    else if x == '!' then do
      let (t, c') ← tagToken l.inFlow c
      l.property t c'
    else if x == '|' && !l.inFlow then l.blockText true
    else if x == '>' && !l.inFlow then l.blockText false
    else if x == '\'' then l.quotedText false
    else if x == '"' then l.quotedText true
    else if beginsPlain l.inFlow x r then l.plainText
    else none

/-- All the tokens from a place on, when there are no more of them than the fuel. -/
def tokensFrom (fuel : Nat) (l : Layout) : Option (Array Token) :=
  match fuel with
  | 0 => none
  | fuel + 1 => do
    let (cursor, keyAllowed) := seek l.inFlow false l.keyAllowed l.cursor
    let l ← dropStale { l with cursor, keyAllowed }
    if l.cursor.rest.isEmpty then (l.closeFrom 0).dropCandidate.map (·.tokens)
    else
      let l ← (l.closeFrom (l.cursor.column + 1)).fetch
      l.tokensFrom fuel

end Layout

/-- The tokens of a text. Each token takes a character at least, so there are no more tokens than
characters. -/
def tokens? (s : String) : Option (List Token) :=
  let cs := s.toList
  if cs.all isPrintable then
    (Layout.tokensFrom (cs.length + 1) { cursor := { rest := cs } }).map (·.toList)
  else none

end ActionSheet.Yaml
