import ActionSheet.Environment.Lines
import ActionSheet.Environment.Variables
import ActionSheet.Text.Alphanumeric

/-!
# Assignments

A logical line assigns a value to a name. In the value a dollar sign stands for the value of a
variable, except between single quotation marks; a name between braces may hold any character, one
without braces ends at the first that is neither letter nor digit. That character is then taken as
it is, whatever it would mean elsewhere, unless it is another dollar sign.

The lines are read in order, and each finds the variables of those before it. The first line that is
no assignment ends the reading; what was assigned before stays. A value that its variable cannot
have is worse: then there are no variables at all.
-/

namespace ActionSheet.Environment

/-! ## Values -/

/-- Where a character of a value stands. The names of variables are gathered last character
first. -/
inductive Place where
  | text (quoted : Bool)
  /-- Behind a backslash. -/
  | escaped (quoted : Bool)
  /-- Between single quotation marks. -/
  | literal
  /-- In the name of a variable. -/
  | name (quoted : Bool) (soFar : List Char)
  /-- In the name of a variable between braces. -/
  | bracedName (quoted : Bool) (soFar : List Char)
  /-- Behind a blank that ended the value. -/
  | ended

/-- What a character behind a backslash stands for. -/
def escape? : Char → Option Char
  | 'n' => some '\n'
  | c => if "\\'\"$ ".toList.contains c then some c else none

/-- The characters that a variable stands for, its name given last character first. A name may hold
an equals sign; what is in front of the sign then names the variable, and the rest has to begin its
value. -/
def substitute (vs : Variables) (soFar : List Char) : List Char :=
  (vs.behind? (soFar.reverse ++ ['='])).getD []

/-- The value that the rest of a line spells. -/
def value? (vs : Variables) : Place → List Char → Option (List Char)
  | .text false, [] | .escaped false, [] | .ended, [] => some []
  | .name false soFar, [] => some (substitute vs soFar)
  | _, [] => none
  | .ended, c :: r =>
    if c = ' ' ∨ c = '\t' then value? vs .ended r else if c = '#' then some [] else none
  | .escaped quoted, c :: r => do
    let x ← escape? c
    return x :: (← value? vs (.text quoted) r)
  | .literal, c :: r =>
    if c = '\'' then value? vs (.text false) r else (value? vs .literal r).map (c :: ·)
  | .name quoted soFar, c :: r =>
    if Text.isAlphanumeric c then value? vs (.name quoted (c :: soFar)) r
    else if c = '\x7b' ∧ soFar = [] then value? vs (.bracedName quoted []) r
    else if c = '$' then (value? vs (.name quoted []) r).map (substitute vs soFar ++ ·)
    else (value? vs (.text quoted) r).map (substitute vs soFar ++ c :: ·)
  | .bracedName quoted soFar, c :: r =>
    if c = '\x7d' then (value? vs (.text quoted) r).map (substitute vs soFar ++ ·)
    else value? vs (.bracedName quoted (c :: soFar)) r
  | .text quoted, c :: r =>
    if c = '$' then value? vs (.name quoted []) r
    else if c = '\\' then value? vs (.escaped quoted) r
    else if c = '"' then value? vs (.text !quoted) r
    else if quoted then (value? vs (.text true) r).map (c :: ·)
    else if c = '\'' then value? vs .literal r
    else if c = ' ' ∨ c = '\t' then value? vs .ended r
    else (value? vs (.text false) r).map (c :: ·)

/-! ## Lines -/

/-- Whether a name can begin with a character. -/
def beginsName (c : Char) : Bool := c.isAlpha || c == '_'

/-- Whether a name can go on with a character. -/
def continuesName (c : Char) : Bool := c.isAlphanum || c == '_' || c == '.'

/-- The name at the front of a line, and what follows it and the blanks behind it. -/
def name? (line : List Char) : Option (List Char × List Char) :=
  if line.head?.any beginsName then
    some (line.takeWhile continuesName,
      (line.dropWhile continuesName).dropWhile Text.isWhite)
  else none

/-- The name that a line assigns to, and what follows the equals sign. A word that announces an
assignment may stand in front of the name; it can also be the name. -/
def target? (line : List Char) : Option (List Char × List Char) := do
  let (name, r) ← name? line
  match r with
  | '=' :: r => return (name, r)
  | _ =>
    if name = "export".toList then
      let (name, r) ← name? r
      match r with
      | '=' :: r => return (name, r)
      | _ => none
    else none

/-- The assignment on a line that is not empty. -/
def assignment? (vs : Variables) (line : List Char) : Option (List Char × List Char) := do
  let (name, r) ← target? line
  let r := r.dropWhile Text.isWhite
  if r.isEmpty || r.head? == some '#' then return (name, [])
  else return (name, ← value? vs (.text false) r)

/-- The variables after some logical lines. -/
def afterLines (vs : Variables) : List (List Char) → Except VariableFault Variables
  | [] => .ok vs
  | line :: rest =>
    let line := (Text.trimEnd Text.isWhite line).dropWhile Text.isWhite
    if line.isEmpty || line.head? == some '#' then afterLines vs rest
    else
      match assignment? vs line with
      | none => .ok vs
      | some (name, value) => do
        afterLines (← vs.fill (String.ofList name) (String.ofList value)) rest

/-- The variables after a file of assignments. -/
def afterFile (vs : Variables) (bytes : ByteArray) : Except VariableFault Variables :=
  afterLines vs (logicalLines .bare [] (textLines bytes))

end ActionSheet.Environment
