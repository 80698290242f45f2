import ActionSheet.Command.Note
import ActionSheet.Environment.Assignment
import ActionSheet.Report
import ActionSheet.Storage.Stored

/-!
# A run of the command

A run settles its settings, opens a catalog, makes a report and gives it out, in this order, and the
first of these that fails ends it. Nothing is written before the report is there, so a run that
fails earlier leaves every file as it was.

Before all that the variables are settled, and a run for which that is impossible does nothing else.

The address of a database comes from the settings, from a variable or from an option, the later one
first where it says anything. There is no repository to connect to: without a file to read the
catalog from, a run fails, and its failure tells whether there was an address.
-/

namespace ActionSheet.Command

/-- Why a run failed. -/
inductive Failure where
  | file (fault : FileFault)
  | noDatabaseSupport (url : String)
  | noSource
  | repository (fault : RepositoryFault)
  | unwritable (path : String)
  deriving DecidableEq, Repr

/-- The failure in words. -/
def Failure.message : Failure → String
  | file fault => fault.message
  | noDatabaseSupport _ =>
    "Database support not compiled in; rebuild with --features database or use --fixture"
  | noSource => "No catalog source: pass --fixture, --database-url, or set DATABASE_URL"
  | repository fault => fault.message
  | unwritable path => "Failed to write " ++ path

/-- What a run cannot know by itself: a new identifier, and the time. -/
structure Occasion where
  fresh : Uuid
  time : String

/-- How a run ended. -/
inductive Outcome where
  /-- The text for standard output; there is none when a file was written. -/
  | done (output : String)
  | failed (failure : Failure)
  | helped
  | misused
  /-- The run did not begin. -/
  | aborted (fault : VariableFault)
  deriving DecidableEq, Repr

namespace Outcome

/-- The exit code of the command. -/
def exitCode : Outcome → UInt8
  | done _ => 0
  | failed _ => 1
  | helped => 0
  | misused => 2
  | aborted _ => 101

/-- What stands on standard output. -/
def output : Outcome → String
  | done text => text
  | helped => help
  | failed _ | misused | aborted _ => ""

/-- What stands on standard error behind the notes. -/
def complaint : Outcome → String
  | failed f => "Error: " ++ f.message ++ "\n"
  | misused => usage
  | aborted fault => fault.message ++ "\n"
  | done _ | helped => ""

end Outcome

/-- What a run noted, and how it ended. -/
structure Ending where
  notes : List Note := []
  outcome : Outcome
  deriving DecidableEq, Repr

/-- What stands on standard error. -/
def Ending.errorOutput (e : Ending) : String :=
  String.join (e.notes.map (·.message ++ "\n")) ++ e.outcome.complaint

variable {m : Type → Type} [Monad m]

/-- The settings of a file, or the standard ones, with the address that a variable gives. -/
def settings (files : Files m) (vs : Variables) (path : Option String) :
    m (Except FileFault Config) := do
  let config ← match path with
    | none => pure (.ok {})
    | some path => Config.load files path
  return config.map (·.overrideUrl (vs.get? Variables.databaseUrl))

/-- The catalog that a run reads. -/
def catalog (files : Files m) (o : Options) (config : Config) :
    m (Except Failure CatalogSource) := do
  match o.fixture with
  | some path =>
    let snapshot ← Snapshot.load files path
    return (snapshot.mapError .file).map fun s => .memory (Catalog.ofSnapshot s)
  | none =>
    match config.databaseUrl with
    | some url => return .error (.noDatabaseSupport url)
    | none => return .error .noSource

/-- A report in the form that was asked for. -/
def rendered (o : Options) (occasion : Occasion) (r : Report) : String :=
  match o.format with
  | .html => r.html
  | .json => (r.toJson (o.correlation.getD occasion.fresh) occasion.time).pretty

/-- The text that a run gives out. -/
def product (files : Files m) (vs : Variables) (occasion : Occasion) (o : Options) :
    ExceptT Failure m String := do
  let config ← ExceptT.mk do return (← settings files vs (settingsPath? vs o)).mapError .file
  let config := config.overrideUrl o.databaseUrl
  let source ← ExceptT.mk (catalog files o config)
  match Report.ofSource config source with
  | .error fault => throw (.repository fault)
  | .ok report => return rendered o occasion report

/-- A text is given out: to the file that was asked for, or with a line break behind it on standard
output. -/
def deliver (files : Files m) (o : Options) (text : String) : m Outcome := do
  match o.output with
  | none => return .done (text ++ "\n")
  | some path => return if ← files.write path text then .done "" else .failed (.unwritable path)

/-- A run with given options. -/
def execute (files : Files m) (vs : Variables) (occasion : Occasion) (o : Options) :
    m Outcome := do
  match ← (product files vs occasion o).run with
  | .error failure => return .failed failure
  | .ok text => deliver files o text

/-- The name of the file of assignments. -/
def assignmentsPath : String := ".env"

/-- The variables of a run: those of its environment, and those that a file assigns. -/
def knownVariables (files : Files m) (vs : Variables) : m (Except VariableFault Variables) := do
  return ((← files.read assignmentsPath).map (Environment.afterFile vs)).getD (.ok vs)

/-- A run of the command. -/
def run (files : Files m) (environment : Variables) (occasion : Occasion)
    (arguments : List String) : m Ending := do
  match ← knownVariables files environment with
  | .error fault => return { outcome := .aborted fault }
  | .ok vs =>
    match Invocation.ofArguments arguments with
    | .help => return { outcome := .helped }
    | .misuse => return { outcome := .misused }
    | .run o => return { notes := notes vs o, outcome := ← execute files vs occasion o }

end ActionSheet.Command
