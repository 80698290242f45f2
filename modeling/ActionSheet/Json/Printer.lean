import ActionSheet.Json.Value
import ActionSheet.Text.Decimal

/-!
# Writing JSON

Two layouts of one value: `print` without any blank, and `pretty` with a line for every item and
two spaces for every level. A string escapes the quotation mark, the backslash and the control
characters, the common ones by their letters, and leaves everything else as it is.
-/

namespace ActionSheet.Json

open Text

/-- A character as it stands in a string literal. -/
def escapeChar (c : Char) : List Char :=
  if c = '"' then ['\\', '"']
  else if c = '\\' then ['\\', '\\']
  else if c = '\x08' then ['\\', 'b']
  else if c = '\x0c' then ['\\', 'f']
  else if c = '\n' then ['\\', 'n']
  else if c = '\r' then ['\\', 'r']
  else if c = '\t' then ['\\', 't']
  else if c.toNat < 0x20 then
    ['\\', 'u', '0', '0', hexChar (c.toNat / 16), hexChar (c.toNat % 16)]
  else [c]

/-- The characters of a string literal. -/
def quoteChars (s : String) : List Char :=
  '"' :: (s.toList.flatMap escapeChar ++ ['"'])

/-- A literal that spells no text is written as the replacement character. -/
def literalChars (s : Option String) : List Char :=
  quoteChars (s.getD "\uFFFD")

mutual

/-- The characters of a value without blanks. -/
def chars : Json → List Char
  | .null => "null".toList
  | .bool true => "true".toList
  | .bool false => "false".toList
  | .integer n => integerChars n
  | .real literal => literal.toList
  | .string s => literalChars s
  | .array items => '[' :: (itemChars items ++ [']'])
  | .object members => '\x7b' :: (memberChars members ++ ['\x7d'])

/-- The items of an array, with commas between them. -/
def itemChars : List Json → List Char
  | [] => []
  | [v] => chars v
  | v :: rest => chars v ++ ',' :: itemChars rest

/-- The members of an object, with commas between them. -/
def memberChars : List (Option String × Json) → List Char
  | [] => []
  | [(name, v)] => literalChars name ++ ':' :: chars v
  | (name, v) :: rest => literalChars name ++ ':' :: (chars v ++ ',' :: memberChars rest)

end

/-- A value without blanks. -/
def print (v : Json) : String :=
  String.ofList v.chars

/-- A line break and the indentation of a level, in front of what stands on the line. -/
def newLine (level : Nat) (line : List Char) : List Char :=
  '\n' :: (List.replicate (2 * level) ' ' ++ line)

mutual

/-- The characters of a value over several lines, from a given level of indentation; an array or
object without content stays on one line. -/
def prettyChars (level : Nat) : Json → List Char
  | .array [] => "[]".toList
  | .array (v :: rest) =>
    '[' :: (newLine (level + 1) (prettyChars (level + 1) v)
      ++ (prettyItems (level + 1) rest ++ newLine level [']']))
  | .object [] => "\x7b\x7d".toList
  | .object ((name, v) :: rest) =>
    '\x7b' :: (newLine (level + 1) (literalChars name ++ ": ".toList ++ prettyChars (level + 1) v)
      ++ (prettyMembers (level + 1) rest ++ newLine level ['\x7d']))
  | .null => chars .null
  | .bool b => chars (.bool b)
  | .integer n => chars (.integer n)
  | .real literal => chars (.real literal)
  | .string s => chars (.string s)

/-- The items after the first, each behind a comma and on a line of its own. -/
def prettyItems (level : Nat) : List Json → List Char
  | [] => []
  | v :: rest => ',' :: (newLine level (prettyChars level v) ++ prettyItems level rest)

/-- The members after the first, each behind a comma and on a line of its own. -/
def prettyMembers (level : Nat) : List (Option String × Json) → List Char
  | [] => []
  | (name, v) :: rest =>
    ',' :: (newLine level (literalChars name ++ ": ".toList ++ prettyChars level v)
      ++ prettyMembers level rest)

end

/-- A value over several lines. -/
def pretty (v : Json) : String :=
  String.ofList (prettyChars 0 v)

end ActionSheet.Json
