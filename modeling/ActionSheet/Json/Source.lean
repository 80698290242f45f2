import ActionSheet.Json.Value
import ActionSheet.Record.Source

/-!
# JSON as a source of records

A JSON value has the type it is written with: a text is a string, an integer is a number written
as one, nothing is `null`. A record may be an object, or an array of its fields in order.
-/

namespace ActionSheet.Json

instance : Source Json where
  text?
    | .string s => s
    | _ => none
  integer?
    | .integer n => some n
    | _ => none
  absent?
    | .null => some true
    | _ => some false
  items?
    | .array items => some items
    | _ => none
  layout?
    | .object members => some (.named members)
    | .array items => some (.positional items)
    | _ => none

end ActionSheet.Json
