import PointQuery.Number.Decimal
import PointQuery.Spatial.DistanceUnit
import PointQuery.Text.Basic
/-!
# Command line options

The options of the program and of its two subcommands: their names, whether they take a value and
which values they take.
-/

namespace PointQuery.CommandLine

/-- Why a command line is not carried out. -/
inductive UsageError where
  | unknownArgument
  | missingRequired
  | invalidSubcommand
  | missingSubcommand
  /-- An option without its value, or with an empty path. -/
  | invalidValue
  /-- A value that its option cannot read. -/
  | unreadableValue
  /-- Two options that exclude each other, or one given twice. -/
  | conflict
  /-- A value for an option that takes none. -/
  | unwantedValue
  | noArguments
  | helpWanted
  | versionWanted
deriving DecidableEq

/-- Where options are read: before the subcommand, or after it. -/
inductive Level where
  | program
  | nearest
  | schema
deriving DecidableEq

/-- An option. -/
inductive Opt where
  | help
  | version
  | config
  | verbose
  | schema
  | origin
  | attribute
  | radius
  | unit
  | select
  | driver
  | count
  | stats
  | database
deriving DecidableEq

/-- The options that may be given at a level. -/
def Level.options : Level → List Opt
  | program => [.config, .verbose, .help, .version]
  | nearest =>
    [.schema, .origin, .attribute, .radius, .unit, .select, .driver, .count, .stats, .database,
      .help]
  | schema => [.schema, .help]

namespace Opt

/-- The long name, written after two dashes. -/
def long : Opt → String
  | help => "help"
  | version => "version"
  | config => "config"
  | verbose => "verbose"
  | schema => "schema"
  | origin => "origin"
  | .attribute => "attribute"
  | radius => "radius"
  | .unit => "unit"
  | select => "select"
  | driver => "driver"
  | count => "count"
  | stats => "stats"
  | database => "database"

/-- The letter, written after one dash. -/
def short? : Opt → Option Char
  | help => some 'h'
  | version => some 'V'
  | config => some 'c'
  | verbose => some 'v'
  | schema => some 's'
  | origin => some 'o'
  | .attribute => some 'a'
  | radius => some 'r'
  | .unit => some 'u'
  | driver => some 'd'
  | select | count | stats | database => none

/-- Whether the option takes a value. -/
def takesValue : Opt → Bool
  | help | version | verbose | count | stats => false
  | _ => true

/-- Whether a value that starts with a dash may stand by itself: an origin may be negative. -/
def allowsDash : Opt → Bool
  | origin => true
  | _ => false

/-- Whether the option may be given more than once. -/
def repeats : Opt → Bool
  | select => true
  | _ => false

/-- The values that an argument of the option holds: a list of columns is split at its commas. -/
def values (o : Opt) (argument : String) : List String :=
  match o with
  | select => (Text.parts ',' argument.toList).map String.ofList
  | _ => [argument]

/-- What is wrong with a value, if anything. -/
def fault? (o : Opt) (value : String) : Option UsageError :=
  match o with
  | config | schema => if value.isEmpty then some .invalidValue else none
  | radius => if (Binary64.parse value).isNone then some .unreadableValue else none
  | .unit =>
    match DistanceUnit.parse value with
    | .ok _ => none
    | .error _ => some .unreadableValue
  | _ => none

end Opt

end PointQuery.CommandLine
