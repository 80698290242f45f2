/-!
# Markup characters in text

Text becomes markup when `&`, `<` and `>` are written as entities. Three passes over the whole
text do it, and their order carries the meaning: the ampersands go first, so that those which the
later passes bring in are not escaped a second time. Quotation marks stay as they are, because the
result only ever stands between tags.
-/

namespace ActionSheet.Text

/-- Every occurrence of one character replaced by a run of characters. -/
def replaceChar (c : Char) (into : List Char) (s : List Char) : List Char :=
  s.flatMap fun x => if x = c then into else [x]

/-- Text as it stands between tags. -/
def escapeChars (s : List Char) : List Char :=
  replaceChar '>' "&gt;".toList (replaceChar '<' "&lt;".toList (replaceChar '&' "&amp;".toList s))

/-- Text as it stands between tags. -/
def escape (s : String) : String :=
  String.ofList (escapeChars s.toList)

/-- The entity that stands for a character, or the character itself. -/
def entity : Char → List Char
  | '&' => "&amp;".toList
  | '<' => "&lt;".toList
  | '>' => "&gt;".toList
  | c => [c]

end ActionSheet.Text
