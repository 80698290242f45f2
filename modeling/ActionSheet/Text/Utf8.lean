/-!
# Lengths and bytes

Documents are read character by character, but every position a reader is told is a number of
UTF-8 bytes. `byteLength` is that measure; it is additive, so a position is the sum of the lengths
of what was passed over, and no text has to be encoded to know where it stands.
-/

namespace ActionSheet.Text

/-- The number of bytes that a run of characters takes in UTF-8. -/
def byteLength : List Char → Nat
  | [] => 0
  | c :: s => c.utf8Size + byteLength s

@[simp] theorem byteLength_nil : byteLength [] = 0 := rfl

@[simp] theorem byteLength_cons (c : Char) (s : List Char) :
    byteLength (c :: s) = c.utf8Size + byteLength s := rfl

@[simp] theorem byteLength_append (s t : List Char) :
    byteLength (s ++ t) = byteLength s + byteLength t := by
  induction s with
  | nil => simp
  | cons c s ih => simp [ih, Nat.add_assoc]

/-- The UTF-8 bytes of a text, in order. -/
def bytes (s : String) : List UInt8 :=
  s.toByteArray.data.toList

/-- The order of two texts by their UTF-8 bytes, the shorter first where one begins the other. -/
def atMost (s t : String) : Bool :=
  bytes s ≤ bytes t

end ActionSheet.Text
