import ActionSheet.Command.Options
import ActionSheet.Environment.Variables

/-!
# Notes

A run notes on standard error which file it takes its settings from. A variable can turn such notes
off by asking for graver ones only.
-/

namespace ActionSheet.Command

/-- What a run notes. -/
inductive Note where
  | settingsFrom (path : String)
  deriving DecidableEq, Repr

/-- The note in words. -/
def Note.message : Note → String
  | settingsFrom path => "Loading configuration from " ++ path

/-- The levels at which a run makes no notes. -/
def quietLevels : List String := ["", "off", "error", "warn", "0", "1", "2"]

/-- Whether a run makes no notes. A level may be written in capitals. -/
def isQuiet (vs : Variables) : Bool :=
  (vs.get? Variables.noteLevel).any fun level =>
    quietLevels.contains (String.ofList (level.toList.map Char.toLower))

/-- The file of settings: the one that is named, or else the one that a variable names. -/
def settingsPath? (vs : Variables) (o : Options) : Option String :=
  o.config <|> vs.get? Variables.configPath

/-- The notes of a run with given options. -/
def notes (vs : Variables) (o : Options) : List Note :=
  if isQuiet vs then [] else (settingsPath? vs o).toList.map .settingsFrom

end ActionSheet.Command
