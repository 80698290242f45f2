import ActionSheet.Text.Decimal

/-!
# Identifiers

An identifier is thirty-two hexadecimal digits. It has one written form, in five groups and lower
case, and four forms in which it is read: that one, the bare digits, the groups in braces, and the
groups behind a `urn:uuid:` mark. Case never matters on the way in.
-/

namespace ActionSheet

/-- A universally unique identifier, as its hexadecimal digits. -/
structure Uuid where
  digits : List (Fin 16)
  length_digits : digits.length = 32
  deriving DecidableEq

namespace Uuid

/-- The identifier that names nothing. -/
def nil : Uuid := ⟨List.replicate 32 0, by simp⟩

instance : Inhabited Uuid := ⟨nil⟩

/-- The lower-case digit. -/
def digitChar (d : Fin 16) : Char := Text.hexChar d

/-- The characters of the grouped form: eight digits, three times four, and twelve. -/
def grouped (ds : List (Fin 16)) : List Char :=
  let cs := ds.map digitChar
  cs.take 8 ++ '-' :: (cs.drop 8).take 4 ++ '-' :: (cs.drop 12).take 4
    ++ '-' :: (cs.drop 16).take 4 ++ '-' :: cs.drop 20

/-- The written form of an identifier. -/
def toText (u : Uuid) : String :=
  String.ofList (grouped u.digits)

/-- The value of a hexadecimal digit. -/
def digit? (c : Char) : Option (Fin 16) :=
  (Text.hexValue? c).bind fun n => if h : n < 16 then some ⟨n, h⟩ else none

/-- An identifier from exactly thirty-two digits. -/
def ofDigits? (cs : List Char) : Option Uuid :=
  (cs.mapM digit?).bind fun ds => if h : ds.length = 32 then some ⟨ds, h⟩ else none

/-- An identifier in groups. -/
def ofGrouped? (cs : List Char) : Option Uuid :=
  if cs[8]? = some '-' ∧ cs[13]? = some '-' ∧ cs[18]? = some '-' ∧ cs[23]? = some '-' then
    ofDigits? (cs.take 8 ++ (cs.drop 9).take 4 ++ (cs.drop 14).take 4 ++ (cs.drop 19).take 4
      ++ cs.drop 24)
  else none

/-- The mark in front of an identifier that is written as a resource name. -/
def resourceMark : List Char := "urn:uuid:".toList

/-- An identifier in any of the forms in which it may be written. -/
def ofChars? (cs : List Char) : Option Uuid :=
  if cs.length = 32 then ofDigits? cs
  else if cs.length = 36 then ofGrouped? cs
  else if cs.length = 38 ∧ cs.head? = some '\x7b' ∧ cs.getLast? = some '\x7d' then
    ofGrouped? (cs.drop 1).dropLast
  else if cs.length = 45 ∧ (cs.take 9).map Char.toLower = resourceMark then
    ofGrouped? (cs.drop 9)
  else none

/-- An identifier in any of the forms in which it may be written. -/
def ofText? (s : String) : Option Uuid :=
  ofChars? s.toList

/-- The half of a byte that is a given digit, the more significant half first. -/
def nibble (bytes : ByteArray) (i : Nat) : Fin 16 :=
  let b := (bytes.data.getD (i / 2) 0).toNat
  Fin.ofNat 16 (if i % 2 = 0 then b / 16 else b)

/-- An identifier of sixteen random bytes. Its thirteenth digit says that it is random, and its
seventeenth begins with the bits of the common variant. -/
def random (bytes : ByteArray) : Uuid :=
  ⟨List.ofFn fun i : Fin 32 =>
    if i.val = 12 then 4
    else if i.val = 16 then Fin.ofNat 16 (8 + (nibble bytes i).val % 4)
    else nibble bytes i, by simp⟩

end Uuid

end ActionSheet
