import ActionSheet.Json.Parser
import ActionSheet.Json.Source
import ActionSheet.Record.Read
import ActionSheet.Storage.Files
import ActionSheet.Storage.Path
import ActionSheet.Text.Blank
import ActionSheet.Yaml.Repetition

/-!
# Stored snapshots and settings

A snapshot is stored in one of two formats, told apart by the extension of its file; settings are
always stored in one of them. Settings that say nothing at all are the standard settings, also where
the format itself would not take such a text.
-/

namespace ActionSheet

/-- The formats in which a snapshot is stored. -/
inductive Format where
  | json
  | yaml
  deriving DecidableEq, Repr

/-- The format of a file, by the extension of its name. -/
def Format.ofPath (path : String) : Format :=
  if (Storage.fileName? path).bind Storage.extension? = some "json".toList then .json else .yaml

/-- The snapshot that a text spells in a format. -/
def Snapshot.parse? : Format → String → Option Snapshot
  | .json, text => (Json.parse? text).bind Record.snapshot
  | .yaml, text => (Yaml.Document.parse? text).bind (·.read? .snapshot Record.snapshot)

/-- The settings that a text spells. -/
def Config.parse? (text : String) : Option Config :=
  if text.toList.all Text.isWhite then some {}
  else (Yaml.Document.parse? text).bind (·.read? .config Record.config)

/-- The snapshot in a file. -/
def Snapshot.load {m : Type → Type} [Monad m] (files : Files m) (path : String) :
    m (Except FileFault Snapshot) :=
  files.load (parse? (Format.ofPath path)) path

/-- The settings in a file. -/
def Config.load {m : Type → Type} [Monad m] (files : Files m) (path : String) :
    m (Except FileFault Config) :=
  files.load parse? path

end ActionSheet
