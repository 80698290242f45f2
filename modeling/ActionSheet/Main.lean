import ActionSheet.Command.Run
import Std.Time.Format

/-!
# The command

What a run needs from the outside: the files of the machine, three variables, sixteen random bytes
and the clock. Everything else is decided by `Command.run`.
-/

namespace ActionSheet

/-- The files of the machine. -/
def machineFiles : Files IO where
  read path := do
    try return some (← IO.FS.readBinFile path) catch _ => return none
  write path text := do
    try
      IO.FS.writeBinFile path text.toUTF8
      return true
    catch _ => return false

/-- The variables that a run reads, as far as they are set. -/
def machineVariables : IO Variables := do
  let mut found : Variables := []
  for name in [Variables.configPath, Variables.databaseUrl, Variables.noteLevel] do
    if let some value ← IO.getEnv name then
      found := (name, value) :: found
  return found

/-- A random identifier and the time. -/
def machineOccasion : IO Command.Occasion := do
  let now ← Std.Time.Timestamp.now
  let time := Std.Time.DateTime.ofTimestamp now Std.Time.TimeZone.ZoneRules.UTC
  return {
    fresh := Uuid.random (← IO.getRandomBytes 16)
    time := time.format "uuuu-MM-dd'T'HH:mm:ss.SSSSSSSSS'Z'" }

end ActionSheet

open ActionSheet in
/-- The command. -/
def main (arguments : List String) : IO UInt32 := do
  let ending ← Command.run machineFiles (← machineVariables) (← machineOccasion) arguments
  IO.eprint ending.errorOutput
  IO.print ending.outcome.output
  return ending.outcome.exitCode.toUInt32
