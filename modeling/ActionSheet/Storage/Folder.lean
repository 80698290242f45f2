import ActionSheet.Storage.Files
import ActionSheet.Storage.Path

/-!
# A folder in memory

One folder of files, with no folder inside it, is a file system that is a value: reading looks a
name up, writing replaces the file of that name or adds one at the end. Outside of the folder there
is only the null device.
-/

namespace ActionSheet

/-- The files of a folder, by name. -/
structure Folder where
  entries : List (String × ByteArray) := []

namespace Folder

/-- The bytes of the file of a given name. -/
def get? (f : Folder) (name : String) : Option ByteArray :=
  f.entries.lookup name

/-- The folder with a file of the given name and bytes. -/
def put (f : Folder) (name : String) (bytes : ByteArray) : Folder :=
  if f.entries.any (·.1 == name) then
    ⟨f.entries.map fun e => if e.1 == name then (name, bytes) else e⟩
  else ⟨f.entries ++ [(name, bytes)]⟩

/-- The bytes at a path. -/
def read? (f : Folder) (path : String) : Option ByteArray :=
  if Storage.isNullDevice path then some ByteArray.empty
  else (Storage.nameInside? path).bind f.get?

/-- The folder after a text was written to a path, if the path names a file. -/
def write? (f : Folder) (path text : String) : Option Folder :=
  if Storage.isNullDevice path then some f
  else (Storage.nameInside? path).map (f.put · text.toUTF8)

/-- The folder as a file system whose state it is. -/
def files : Files (StateM Folder) :=
  Files.ofState read? write?

end Folder

end ActionSheet
