/-!
# Records in a data format

The library reads its records from two formats that disagree on what a value is: in one of them a
scalar has a type of its own, in the other it becomes a number, a text or nothing according to who
asks. `Source` is what both can answer. A record is then read once for all formats, from its
fields by name, or by position where the format has records without names.

A field that the record does not know is ignored; a known field that is given twice makes the
record unreadable, and so does a value left over after the last position.
-/

namespace ActionSheet

/-- A record as a format presents it. A name is `none` where the format allows something there
that no field can be called by. -/
inductive Layout (α : Type) where
  | named (members : List (Option String × α))
  | positional (values : List α)

/-- What a value of a data format answers to a reader that knows what it wants. -/
class Source (α : Type) where
  /-- The text of a value. -/
  text? : α → Option String
  /-- The integer that a value is. -/
  integer? : α → Option Int
  /-- Whether a value says that there is none, where the format can tell. -/
  absent? : α → Option Bool
  /-- The elements of a value that is a list. -/
  items? : α → Option (List α)
  /-- The content of a value that is a record. -/
  layout? : α → Option (Layout α)

/-- The values of the known fields, by name. -/
abbrev Record.Fields (α : Type) := List (String × α)

/-- The known fields of a record whose fields are declared in the given order. -/
def Layout.fields? {α : Type} (names : List String) : Layout α → Option (Record.Fields α)
  | .named members =>
    if members.any (·.1.isNone) then none
    else
      let known := members.filterMap fun (name, v) =>
        name.bind fun n => if names.contains n then some (n, v) else none
      if (known.map (·.1)).Nodup then some known else none
  | .positional values =>
    if names.length < values.length then none else some (names.zip values)

namespace Record

variable {α β : Type}

/-- The known fields of a value that is a record. -/
def fields? [Source α] (names : List String) (v : α) : Option (Fields α) :=
  (Source.layout? v).bind (Layout.fields? names)

/-- A field that must be there. -/
def required (read : α → Option β) (name : String) (fields : Fields α) : Option β :=
  (fields.lookup name).bind read

/-- A field with a value for when it is missing; what stands in it must be readable. -/
def defaulted (read : α → Option β) (value : β) (name : String) (fields : Fields α) : Option β :=
  match fields.lookup name with
  | none => some value
  | some v => read v

/-- A value that may say that there is none. -/
def nullable [Source α] (read : α → Option β) (v : α) : Option (Option β) :=
  (Source.absent? v).bind fun absent => if absent then some none else (read v).map some

/-- A field that may be missing, or there and empty. -/
def optional [Source α] (read : α → Option β) (name : String) (fields : Fields α) :
    Option (Option β) :=
  defaulted (nullable read) none name fields

/-- A text. -/
def text [Source α] : α → Option String := Source.text?

/-- An integer of thirty-two bits with a sign. -/
def int32 [Source α] (v : α) : Option Int32 :=
  (Source.integer? v).bind fun n =>
    if -2147483648 ≤ n ∧ n ≤ 2147483647 then some (Int32.ofInt n) else none

/-- A natural number of sixty-four bits. -/
def natural64 [Source α] (v : α) : Option Nat :=
  (Source.integer? v).bind fun n => if 0 ≤ n ∧ n < UInt64.size then some n.toNat else none

/-- A list whose elements can all be read. -/
def list [Source α] (read : α → Option β) (v : α) : Option (List β) :=
  (Source.items? v).bind (List.mapM read)

end Record

end ActionSheet
