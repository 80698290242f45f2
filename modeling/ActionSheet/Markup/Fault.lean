import ActionSheet.Text.Decimal

/-!
# What can be wrong with a document

A document fails for one cause, at one position. The causes are those of the text (a construct
that is not closed, a tag without its partner), of an attribute, of a reference inside a value, of
a namespace declaration, and of the tree that the tags are to form. Causes carry what their wording
needs and no more; the wording itself stands in one place, at the end of this module.
-/

namespace ActionSheet.Markup

/-- What can be wrong with a reference inside an attribute value. Offsets count the bytes of the
value. -/
inductive ReferenceFault where
  /-- An ampersand without the semicolon that ends it. -/
  | unterminated (start stop : Nat)
  /-- A name that stands for no character. -/
  | unknown (start stop : Nat) (name : String)
  | signedNumber
  | emptyNumber
  | badDigit
  | tooLarge
  | zero
  /-- A number that is no character. -/
  | noCharacter (n : Nat)
  deriving DecidableEq, Repr

/-- What can be wrong with an attribute. Positions count the bytes of the tag after its `<`. -/
inductive AttributeFault where
  /-- A key that no equals sign follows. -/
  | missingEquals (position : Nat)
  /-- A key that the tag has already used. -/
  | duplicated (position previous : Nat)
  /-- An equals sign at the end of the tag. -/
  | missingValue (position : Nat)
  | unquotedValue (position : Nat)
  | unclosedQuote (position : Nat) (quote : Char)
  deriving DecidableEq, Repr

/-- What can be wrong at a position of a document. -/
inductive Cause where
  | unknownMarkup
  | unclosedInstruction
  | unclosedComment
  | unclosedDoctype
  | unclosedCdata
  | unclosedTag
  | namelessDoctype
  /-- An end tag with no element open. -/
  | unmatchedEnd (name : String)
  /-- An end tag that does not name the innermost open element. -/
  | mismatchedEnd (expected found : String)
  /-- A declaration that binds a reserved prefix, or binds another to a reserved namespace. -/
  | reservedBinding (pre uri : List Char)
  | badAttribute (fault : AttributeFault)
  | badReference (fault : ReferenceFault)
  | tooDeep (limit : Nat)
  /-- An end tag that the tree has no open element for. -/
  | unexpectedEnd
  | textOutsideRoot
  | cdataOutsideRoot
  | secondRoot (name : String)
  deriving DecidableEq, Repr

/-- Why a definition cannot be used. -/
inductive Fault where
  /-- The text is at fault, at the position reached when the cause was found. -/
  | markup (position : Nat) (cause : Cause)
  | missingRoot
  /-- The text ends while an element is open. -/
  | unclosedElement (name : String)
  | missingAttribute (element name : String)
  deriving DecidableEq, Repr

/-! ## Wording -/

open Text in
/-- The range of offsets from one to another. -/
def range (start stop : Nat) : String :=
  decimal start ++ ".." ++ decimal stop

open Text in
/-- What is wrong with a reference, in words. -/
def ReferenceFault.message : ReferenceFault → String
  | unterminated start stop =>
    "Error while escaping character at range " ++ range start stop
      ++ ": Cannot find ';' after '&'"
  | unknown start stop name =>
    "at " ++ range start stop ++ ": unrecognized entity `" ++ name ++ "`"
  | signedNumber => "invalid character reference: unexpected number sign"
  | emptyNumber => "invalid character reference: cannot parse integer from empty string"
  | badDigit => "invalid character reference: invalid digit found in string"
  | tooLarge => "invalid character reference: number too large to fit in target type"
  | zero => "invalid character reference: 0x0 character is not permitted in XML"
  | noCharacter n =>
    "invalid character reference: `" ++ decimal n ++ "` is not a valid codepoint"

open Text in
/-- What is wrong with an attribute, in words. -/
def AttributeFault.message : AttributeFault → String
  | missingEquals p =>
    "position " ++ decimal p ++ ": attribute key must be directly followed by `=` or space"
  | duplicated p q =>
    "position " ++ decimal p ++ ": duplicated attribute, previous declaration at position "
      ++ decimal q
  | missingValue p => "position " ++ decimal p ++ ": `=` must be followed by an attribute value"
  | unquotedValue p =>
    "position " ++ decimal p ++ ": attribute value must be enclosed in `\"` or `'`"
  | unclosedQuote p quote =>
    "position " ++ decimal p ++ ": missing closing quote `" ++ quote.toString
      ++ "` in attribute value"

/-- The upper-case hexadecimal digit of a number below sixteen. -/
def upperHex (d : Nat) : Char :=
  (Text.hexChar d).toUpper

/-- A byte as it is shown: printable characters as they are, a quotation mark behind a backslash,
and any other byte by its number. -/
def showByte (b : UInt8) : List Char :=
  let n := b.toNat
  if n = 0x22 then ['\\', '"']
  else if 0x20 ≤ n ∧ n ≤ 0x7e then [Char.ofNat n]
  else if n < 16 then ['0', 'x', upperHex n]
  else ['0', 'x', upperHex (n / 16), upperHex (n % 16)]

/-- A run of characters, shown by its bytes between both kinds of quotation mark. -/
def showBytes (s : List Char) : String :=
  "'\"" ++ String.ofList ((s.flatMap String.utf8EncodeChar).flatMap showByte) ++ "\"'"

/-- What is wrong at a position, in words. -/
def Cause.message : Cause → String
  | unknownMarkup => "syntax error: unknown or missed symbol in markup"
  | unclosedInstruction =>
    "syntax error: processing instruction or xml declaration not closed: "
      ++ "`?>` not found before end of input"
  | unclosedComment => "syntax error: comment not closed: `-->` not found before end of input"
  | unclosedDoctype => "syntax error: DOCTYPE not closed: `>` not found before end of input"
  | unclosedCdata => "syntax error: CDATA not closed: `]]>` not found before end of input"
  | unclosedTag => "syntax error: tag not closed: `>` not found before end of input"
  | namelessDoctype =>
    "ill-formed document: `<!DOCTYPE>` declaration does not contain a name of a document type"
  | unmatchedEnd name =>
    "ill-formed document: close tag `</" ++ name ++ ">` does not match any open tag"
  | mismatchedEnd expected found =>
    "ill-formed document: expected `</" ++ expected ++ ">`, but `</" ++ found ++ ">` was found"
  | reservedBinding pre uri =>
    "The namespace prefix " ++ showBytes pre ++ " cannot be bound to " ++ showBytes uri
  | badAttribute fault => fault.message
  | badReference fault => fault.message
  | tooDeep limit => "nesting too deep (limit " ++ Text.decimal limit ++ ")"
  | unexpectedEnd => "unexpected closing tag"
  | textOutsideRoot => "text outside the root element"
  | cdataOutsideRoot => "CDATA outside the root element"
  | secondRoot name => "second root element '" ++ name ++ "'"

/-- The message about a detail found at a position. -/
def positionMessage (position : Nat) (detail : String) : String :=
  "XML parse error at byte " ++ Text.decimal position ++ ": " ++ detail

/-- Why a definition cannot be used, in words. -/
def Fault.message : Fault → String
  | markup position cause => positionMessage position cause.message
  | missingRoot => "Document has no root element"
  | unclosedElement name => "Element '" ++ name ++ "' is never closed"
  | missingAttribute element name =>
    "Element '" ++ element ++ "' is missing required attribute '" ++ name ++ "'"

end ActionSheet.Markup
