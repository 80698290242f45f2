/-!
# Environment variables

A run reads three variables. They may also be assigned in a file; an assignment only fills a gap and
never replaces a value that is there, not even an empty one. A value that holds a NUL character can
be given to no variable.
-/

namespace ActionSheet

/-- Variables and their values; the first of two entries for one name counts. -/
abbrev Variables := List (String × String)

/-- A value that no variable can have was to be given to the variable of a name. -/
structure VariableFault where
  name : String
  deriving DecidableEq, Repr

/-- The fault in words. -/
def VariableFault.message (f : VariableFault) : String :=
  "No variable can hold a NUL character: " ++ f.name

namespace Variables

/-- The variable that names the file of settings. -/
def configPath : String := "ACTION_METADATA_CONFIG"

/-- The variable that gives the address of the database. -/
def databaseUrl : String := "DATABASE_URL"

/-- The variable that says which notes are made. -/
def noteLevel : String := "RUST_LOG"

/-- The value of a variable, if it is set. -/
def get? (vs : Variables) (name : String) : Option String :=
  vs.lookup name

/-- What follows a beginning in the first of the variables that has it, each written as its name, an
equals sign and its value. -/
def behind? (vs : Variables) (beginning : List Char) : Option (List Char) :=
  vs.findSome? fun (name, value) => beginning.isPrefixOf? (name.toList ++ '=' :: value.toList)

/-- The variables with a value for a name that has none. -/
def fill (vs : Variables) (name value : String) : Except VariableFault Variables :=
  if (vs.get? name).isSome then .ok vs
  else if value.toList.contains '\x00' then .error ⟨name⟩
  else .ok ((name, value) :: vs)

end Variables

end ActionSheet
