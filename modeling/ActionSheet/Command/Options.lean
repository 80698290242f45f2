import ActionSheet.Uuid

/-!
# The options of the command

Seven options each take a value, in the next argument or joined to the option. An option is given at
most once and by its full name, a value never looks like an option, and nothing stands beside the
options. Arguments are read from left to right, and the first that asks for help, or is wrong,
decides.
-/

namespace ActionSheet.Command

/-- The forms in which a report is given out. -/
inductive ReportFormat where
  | html
  | json
  deriving DecidableEq, Repr

/-- The name of a form. -/
def ReportFormat.ofText? : String → Option ReportFormat
  | "html" => some .html
  | "json" => some .json
  | _ => none

/-- What a run was asked for. -/
structure Options where
  config : Option String := none
  fixture : Option String := none
  databaseUrl : Option String := none
  output : Option String := none
  format : ReportFormat := .html
  user : Option Uuid := none
  correlation : Option Uuid := none
  deriving DecidableEq

/-- An option. -/
inductive Choice where
  | config
  | fixture
  | databaseUrl
  | output
  | format
  | user
  | correlation
  deriving DecidableEq, Repr

/-- The option of a long name. -/
def Choice.ofLong? : String → Option Choice
  | "config" => some .config
  | "fixture" => some .fixture
  | "database-url" => some .databaseUrl
  | "output" => some .output
  | "format" => some .format
  | "user" => some .user
  | "correlation-id" => some .correlation
  | _ => none

/-- The option of a short name. -/
def Choice.ofShort? : Char → Option Choice
  | 'c' => some .config
  | 'f' => some .fixture
  | 'o' => some .output
  | _ => none

/-- A path, which is never empty. -/
def path? (value : String) : Option String :=
  if value.isEmpty then none else some value

/-- The options with a value for one of them, if that can have this value. -/
def Options.set (o : Options) (value : String) : Choice → Option Options
  | .config => (path? value).map fun v => { o with config := some v }
  | .fixture => (path? value).map fun v => { o with fixture := some v }
  | .databaseUrl => some { o with databaseUrl := some value }
  | .output => (path? value).map fun v => { o with output := some v }
  | .format => (ReportFormat.ofText? value).map fun v => { o with format := v }
  | .user => (Uuid.ofText? value).map fun v => { o with user := some v }
  | .correlation => (Uuid.ofText? value).map fun v => { o with correlation := some v }

/-- What one argument says, where an option or nothing is expected. -/
inductive Word where
  | help
  /-- An option, with its value if that is joined to it. -/
  | choice (c : Choice) (value : Option String)
  /-- The end of the options. -/
  | endOfOptions
  | unknown
  deriving DecidableEq, Repr

/-- An argument that begins with two hyphens, from behind them. -/
def Word.ofLong (s : List Char) : Word :=
  let name := String.ofList (s.takeWhile (· != '='))
  let value := match s.dropWhile (· != '=') with
    | [] => none
    | _ :: v => some (String.ofList v)
  if s.isEmpty then .endOfOptions
  else if name = "help" ∧ value = none then .help
  else
    match Choice.ofLong? name with
    | none => .unknown
    | some c => .choice c value

/-- The value that is joined to a short name, from what follows the name. -/
def joinedValue : List Char → Option String
  | [] => none
  | '=' :: v => some (String.ofList v)
  | v => some (String.ofList v)

/-- An argument that begins with one hyphen, from behind it. -/
def Word.ofShort : List Char → Word
  | [] => .unknown
  | 'h' :: _ => .help
  | name :: s =>
    match Choice.ofShort? name with
    | none => .unknown
    | some c => .choice c (joinedValue s)

/-- What an argument says. -/
def Word.ofText (s : String) : Word :=
  match s.toList with
  | '-' :: '-' :: r => ofLong r
  | '-' :: r => ofShort r
  | _ => .unknown

/-- Whether an argument can be the value of the option in front of it. A lone hyphen can. -/
def isValue (s : String) : Bool :=
  s == "-" || s.toList.head? != some '-'

/-- What a list of arguments asks for. -/
inductive Invocation where
  | run (o : Options)
  | help
  | misuse
  deriving DecidableEq

/-- The options after those that were given, with the value for another. -/
def Options.give (o : Options) (given : List Choice) (c : Choice) (value : String) :
    Option Options :=
  if given.contains c then none else o.set value c

/-- What arguments ask for, when some options were given before. -/
def Invocation.after (o : Options) (given : List Choice) : List String → Invocation
  | [] => .run o
  | s :: rest =>
    match Word.ofText s with
    | .help => .help
    | .unknown => .misuse
    | .endOfOptions => if rest.isEmpty then .run o else .misuse
    | .choice c (some value) =>
      match o.give given c value with
      | none => .misuse
      | some o => after o (c :: given) rest
    | .choice c none =>
      match rest with
      | [] => .misuse
      | value :: rest =>
        if isValue value then
          match o.give given c value with
          | none => .misuse
          | some o => after o (c :: given) rest
        else .misuse

/-- What the arguments of the command ask for. -/
def Invocation.ofArguments (arguments : List String) : Invocation :=
  after {} [] arguments

/-- What the command says about itself. -/
def help : String := String.intercalate "\n" [
  "Export custom action argument metadata as an HTML table",
  "",
  "Usage: actions-metadata [OPTIONS]",
  "",
  "Options:",
  "  -c, --config <CONFIG>                  YAML config file (defaults to $ACTION_METADATA_CONFIG)",
  "  -f, --fixture <FIXTURE>                Catalog snapshot to read instead of the database",
  "      --database-url <DATABASE_URL>      Repository database URL (overrides config and $DATABASE_URL)",
  "  -o, --output <OUTPUT>                  Write output here instead of stdout",
  "      --format <FORMAT>                  [default: html] [possible values: html, json]",
  "      --user <USER>                      Initiating user id, recorded in diagnostics only",
  "      --correlation-id <CORRELATION_ID>  Correlation id (generated when absent)",
  "  -h, --help                             Print help",
  ""]

/-- What the command says when it is misused. -/
def usage : String := String.intercalate "\n" [
  "error: the arguments cannot be understood",
  "",
  "Usage: actions-metadata [OPTIONS]",
  "",
  "For more information, try '--help'.",
  ""]

end ActionSheet.Command
