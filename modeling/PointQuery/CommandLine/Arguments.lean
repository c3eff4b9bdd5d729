import PointQuery.CommandLine.Options
/-!
# Reading arguments

Arguments are read from left to right, first those of the program and, from the name of a subcommand
on, those of the subcommand. The value of an option may be attached to it or be the next argument;
in the latter case it is checked once the next option, or the end, is reached.
-/

namespace PointQuery.CommandLine

/-! ## What has been given -/

/-- The options read so far, with their values. -/
structure Given where
  options : List (Opt × List String) := []
  /-- An option whose value is the next argument or has just been it. -/
  pending : Option (Opt × Option String) := none

namespace Given

/-- The values of an option, if it has been given. -/
def values? (g : Given) (o : Opt) : Option (List String) :=
  (g.options.find? fun e => e.1 == o).map Prod.snd

/-- Whether an option has been given. -/
def has (g : Given) (o : Opt) : Bool := (g.values? o).isSome

/-- The value of an option that takes one. -/
def value? (g : Given) (o : Opt) : Option String := (g.values? o).bind List.head?

/-- The option that waits for its value. -/
def awaiting? (g : Given) : Option Opt :=
  match g.pending with
  | some (o, none) => some o
  | _ => none

/-- Adds values of an option to those given. -/
def record (g : Given) (o : Opt) (values : List String) : Except UsageError Given := do
  if g.has o && !o.repeats then throw .conflict
  if let some fault := values.findSome? o.fault? then throw fault
  let earlier := (g.values? o).getD []
  return { g with options := (o, earlier ++ values) :: g.options.filter fun e => e.1 != o }

/-- Takes in the option that is pending. -/
def settle (g : Given) : Except UsageError Given :=
  match g.pending with
  | none => .ok g
  | some (_, none) => .error .invalidValue
  | some (o, some argument) => { g with pending := none }.record o (o.values argument)

/-- Takes in an option with its value attached, or one without value; those that ask for help or the
version end the reading. -/
def take (g : Given) (o : Opt) (argument : Option String) : Except UsageError Given := do
  let g ← g.settle
  match o with
  | .help => throw .helpWanted
  | .version => throw .versionWanted
  | _ => g.record o ((argument.map o.values).getD [])

/-- Lets an option wait for its value. -/
def await (g : Given) (o : Opt) : Except UsageError Given := do
  let g ← g.settle
  return { g with pending := some (o, none) }

end Given

/-! ## Single arguments -/

/-- Reads an option by its long name, with a value attached if there is one. -/
def readLong (level : Level) (g : Given) (name : String) (attached : Option String) :
    Except UsageError Given :=
  match level.options.find? fun o => o.long == name with
  | none => .error .unknownArgument
  | some o =>
    if o.takesValue then
      match attached with
      | some value => g.take o (some value)
      | none => g.await o
    else
      match attached with
      | some _ => .error .unwantedValue
      | none => g.take o none

/-- Reads options by their letters. The first that takes a value takes the rest of the letters,
after an equals sign or without one. -/
def readShort (level : Level) (g : Given) : List Char → Except UsageError Given
  | [] => .ok g
  | c :: cs =>
    match level.options.find? fun o => o.short? == some c with
    | none => .error .unknownArgument
    | some o =>
      if o.takesValue then
        match cs with
        | [] => g.await o
        | '=' :: value => g.take o (some (String.ofList value))
        | value => g.take o (some (String.ofList value))
      else
        match g.take o none with
        | .ok g => readShort level g cs
        | .error e => .error e

/-- How an argument looks. -/
inductive Shape where
  /-- Two dashes: only plain arguments follow. -/
  | escape
  | long (name : String) (attached : Option String)
  | short (letters : List Char)
  | plain

/-- Splits a long option at its first equals sign. -/
def splitEquals (cs : List Char) : Shape :=
  let name := String.ofList (cs.takeWhile (· ≠ '='))
  match cs.dropWhile (· ≠ '=') with
  | [] => .long name none
  | _ :: value => .long name (some (String.ofList value))

/-- The shape of an argument; a single dash is plain. -/
def Shape.of (argument : String) : Shape :=
  match argument.toList with
  | ['-', '-'] => .escape
  | '-' :: '-' :: cs => splitEquals cs
  | ['-'] => .plain
  | '-' :: letters => .short letters
  | _ => .plain

/-! ## Subcommands -/

/-- The level that a subcommand opens. -/
def Level.ofName? (name : String) : Option Level :=
  if name = "nearest" then some .nearest
  else if name = "schema" then some .schema
  else none

/-- What the subcommand `help` comes to: it may be followed by the name of a subcommand. -/
def helpTopic : List String → UsageError
  | [] => .helpWanted
  | [name] =>
    if (Level.ofName? name).isSome ∨ name = "help" then .helpWanted else .invalidSubcommand
  | _ => .invalidSubcommand

/-- What is wrong with an argument that is neither an option nor a value. -/
def stray (level : Level) (escaped : Bool) (argument : String) : UsageError :=
  match level with
  | .program =>
    if escaped ∧ ((Level.ofName? argument).isSome ∨ argument = "help") then .unknownArgument
    else .invalidSubcommand
  | _ => .unknownArgument

/-! ## All arguments -/

/-- Reads the arguments of a level. On the level of the program, reading stops after the name of a
subcommand and gives the arguments that are left. -/
def readLevel (level : Level) : Bool → Given → List String →
    Except UsageError (Given × Option (Level × List String))
  | _, g, [] => .ok (g, none)
  | escaped, g, argument :: rest =>
    let value : Given := { g with pending := g.pending.map fun p => (p.1, some argument) }
    let dashAllowed := g.awaiting?.any Opt.allowsDash
    if escaped then .error (stray level escaped argument)
    else if level = .program ∧ g.awaiting?.isNone ∧ (Level.ofName? argument).isSome then
      .ok (g, (Level.ofName? argument).map fun l => (l, rest))
    else if level = .program ∧ g.awaiting?.isNone ∧ argument = "help" then .error (helpTopic rest)
    else if dashAllowed then readLevel level false value rest
    else
      match Shape.of argument with
      | .escape => readLevel level true g rest
      | .long name attached =>
        match readLong level g name attached with
        | .ok g => readLevel level false g rest
        | .error e => .error e
      | .short letters =>
        match readShort level g letters with
        | .ok g => readLevel level false g rest
        | .error e => .error e
      | .plain =>
        if g.awaiting?.isSome then readLevel level false value rest
        else .error (stray level false argument)

/-! ## Invocations -/

/-- The variables of the environment that stand in for options. -/
structure Environment where
  driver : Option String := none
  database : Option String := none

/-- The options of a proximity search. -/
structure NearestOptions where
  schema : String
  origin : String
  column : String
  radius : Binary64
  unit : DistanceUnit
  select : List String
  driver : String
  count : Bool
  stats : Bool
  database : Option String
deriving DecidableEq

/-- What is to be done. -/
inductive Command where
  /-- Print the SQL of a proximity search. -/
  | nearest (options : NearestOptions)
  /-- List the point columns of a table. -/
  | schema (path : String)
deriving DecidableEq

/-- A command line that can be carried out. -/
structure Invocation where
  config : Option String
  verbose : Bool
  command : Command
deriving DecidableEq

/-- The command of a subcommand with its options. Options that exclude each other are reported
before those that are missing. -/
def commandOf (env : Environment) (level : Level) (g : Given) : Except UsageError Command :=
  let database := (g.value? .database).or env.database
  if g.has .count ∧ g.has .stats then .error .conflict
  else
    match level, g.value? .schema, g.value? .origin with
    | .nearest, some schema, some origin =>
      if (g.has .count ∨ g.has .stats) ∧ database.isNone then .error .missingRequired
      else
        .ok <| .nearest {
          schema, origin, database
          column := (g.value? .attribute).getD "geom"
          radius := ((g.value? .radius).bind Binary64.parse).getD (Binary64.ofInt 100)
          unit :=
            match (g.value? .unit).map DistanceUnit.parse with
            | some (.ok unit) => unit
            | _ => .kilometer
          select := (g.values? .select).getD []
          driver := ((g.value? .driver).or env.driver).getD "mysql"
          count := g.has .count
          stats := g.has .stats }
    | .schema, some schema, _ => .ok (.schema schema)
    | _, _, _ => .error .missingRequired

/-- Reads a command line. The options of the subcommand are checked before a value of the program
that is still pending. -/
def parse (env : Environment) (arguments : List String) : Except UsageError Invocation := do
  match ← readLevel .program false {} arguments with
  | (g, some (level, rest)) =>
    let (sub, _) ← readLevel level false {} rest
    let sub ← sub.settle
    let command ← commandOf env level sub
    let g ← g.settle
    return ⟨g.value? .config, g.has .verbose, command⟩
  | (g, none) =>
    let g ← g.settle
    if g.options.isEmpty then throw .noArguments else throw .missingSubcommand

end PointQuery.CommandLine
