import ActionSheet.Catalog.Workflow

/-!
# Settings

A run is governed by the address of a database, the filter that picks the actions, and the two
names by which the parts of a definition are recognised. The address can be overridden from
outside; an empty override says nothing and leaves the settings as they were.
-/

namespace ActionSheet

/-- The names by which the parts of a definition are recognised. -/
structure Namespaces where
  /-- The namespace of properties and of their groups of remarks. -/
  core : String := "http://schemas.microsoft.com/winfx/2006/xaml"
  /-- The prefix that the root declares when the definition carries remarks. -/
  annotationPrefix : String := "mxsw"
  deriving DecidableEq, Repr

/-- The settings of a run. -/
structure Config where
  databaseUrl : Option String := none
  filter : Filter := {}
  namespaces : Namespaces := {}
  deriving DecidableEq

/-- The settings with another database address, unless that is missing or empty. -/
def Config.overrideUrl (c : Config) : Option String → Config
  | none => c
  | some url => if url.isEmpty then c else { c with databaseUrl := some url }

end ActionSheet
