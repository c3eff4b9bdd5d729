import PointQuery.CommandLine.Arguments
import PointQuery.Compiler.Executor
import PointQuery.Folder
import PointQuery.Table.Json
/-!
# Carrying out a command line

What the program prints, given its arguments, the environment and the files that it reads.
-/

namespace PointQuery.CommandLine

/-- What a run comes to. -/
structure Result where
  code : Nat
  /-- The lines of standard output. -/
  lines : List String := []
  /-- The text of standard error. -/
  error : String := ""

/-! ## Parts of a run -/

/-- The query that a search starts from: some columns of the table, or all. -/
def startQuery (table : String) (select : List String) : Sql.Query :=
  { select := select.map .plain, source := some (.table table none) }

/-- The log lines of the events that are shown; the finest ones only on request. -/
def logLines (verbose : Bool) (events : List Event) : List String :=
  (events.filter fun e => verbose || e.severity != .debug).map Event.line

/-- The lines of a compiled query: its text, and its values with their numbers. -/
def queryLines (q : Statement) : List String :=
  q.sql :: q.params.zipIdx.map fun p => "  " ++ toString (p.2 + 1) ++ ": " ++ p.1.inline

/-- The failure of a run, after what it has printed. -/
def failure (lines : List String) (error : String) : Result :=
  { code := 1, lines, error := "Error: " ++ error }

/-- Loads a description from a path. -/
def loadFrom {α : Type} (files : String → TextFile) (path : String)
    (describe : String → Except Json.Failure α) : Except String α :=
  match (files path).load describe with
  | .ok a => .ok a
  | .error _ => .error ("reading " ++ path)

/-! ## Commands -/

/-- Prints the SQL of a search. Counting rows needs a server, for which a closed pool stands. -/
def runNearest (verbose : Bool) (config : Config) (table : Table) (o : NearestOptions) :
    Result :=
  let start : Compiler :=
    { query := startQuery table.name o.select, table, driver := o.driver, config }
  let lines := logLines verbose (start.searchNearEvents o.origin o.column o.radius o.unit)
  match (Compiler.searchNear o.origin o.column o.radius o.unit).run start with
  | .error error _ => failure lines error.message
  | .ok _ compiler =>
    let lines := lines ++ logLines verbose (compiler.statementEvents compiler.mode compiler.query)
    match compiler.compile with
    | .error error => failure lines error.message
    | .ok query =>
      let lines := lines ++ queryLines query
      if o.count ∨ o.stats then
        let call : ExecutorCall := if o.count then .rowCount else .distanceSummary
        let dialect :=
          match compiler.dialect with
          | .ok dialect => dialect
          | .error _ => .mysql
        let (error, issued) := (Executor.mk dialect).callClosed call compiler
        let events := call.events compiler ++ issued.toList
        failure (lines ++ logLines verbose events) error.message
      else { code := 0, lines }

/-- Lists the point columns of a table. -/
def runSchema (verbose : Bool) (table : Table) : Result :=
  if table.points.isEmpty then { code := 0, lines := logLines verbose [.noPoints table.name] }
  else
    { code := 0, lines := (table.name ++ ":") :: table.points.map fun c => "  " ++ c.name }

/-- Carries out an invocation. The settings are loaded before the table. -/
def runInvocation (files : String → TextFile) (i : Invocation) : Result :=
  let loaded : Except String Result := do
    let config ←
      match i.config with
      | some path => loadFrom files path Config.ofJson
      | none => pure {}
    match i.command with
    | .nearest options =>
      let table ← loadFrom files options.schema Table.ofJson
      return runNearest i.verbose config table options
    | .schema path =>
      let table ← loadFrom files path Table.ofJson
      return runSchema i.verbose table
  match loaded with
  | .ok result => result
  | .error error => failure [] error

/-- The files that an invocation reads. -/
def Invocation.paths (i : Invocation) : List String :=
  i.config.toList ++
    match i.command with
    | .nearest options => [options.schema]
    | .schema path => [path]

/-- The files that have been read, by their paths. -/
def filesRead (contents : List (String × TextFile)) (path : String) : TextFile :=
  (contents.lookup path).getD .missing

/-! ## Usage -/

/-- How the program is used. -/
def usage : List String := [
  "Usage: oxide-geo [OPTIONS] <COMMAND>",
  "",
  "  nearest -s SCHEMA -o LAT,LNG [-a COLUMN] [-r RADIUS] [-u UNIT] [--select COLUMNS]",
  "          [-d DRIVER] [--database URL] [--count | --stats]",
  "  schema  -s SCHEMA",
  "",
  "Options:",
  "  -c, --config PATH   settings of the compiler",
  "  -v, --verbose       show all log lines"]

/-- What is wrong with a command line. -/
def UsageError.message : UsageError → String
  | unknownArgument => "unexpected argument"
  | missingRequired => "a required argument was not given"
  | invalidSubcommand => "unrecognized subcommand"
  | missingSubcommand => "a subcommand is needed"
  | invalidValue => "an option needs a value"
  | unreadableValue => "a value could not be read"
  | conflict => "an argument cannot be used with another, or more than once"
  | unwantedValue => "an option takes no value"
  | noArguments | helpWanted | versionWanted => ""

/-- What a command line that is not carried out comes to. -/
def refuse : UsageError → Result
  | .helpWanted => { code := 0, lines := usage }
  | .versionWanted => { code := 0, lines := ["oxide-geo 0.1.0"] }
  | .noArguments => { code := 2, error := "\n".intercalate usage }
  | e => { code := 2, error := "error: " ++ e.message }

/-- Runs the program. -/
def run (files : String → TextFile) (env : Environment) (arguments : List String) : Result :=
  match parse env arguments with
  | .ok invocation => runInvocation files invocation
  | .error e => refuse e

/-- Runs the program in a folder. -/
def runIn (folder : Folder) (env : Environment) (arguments : List String) : Result :=
  run folder.find env arguments

end PointQuery.CommandLine
