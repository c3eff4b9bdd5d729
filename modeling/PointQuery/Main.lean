import PointQuery.CommandLine.Run
/-!
# The program

Reads the environment and the files that the command line names, and prints what the run comes to.
-/

open PointQuery PointQuery.CommandLine

/-- What is at a path. -/
def readPath (path : String) : IO TextFile := do
  try
    return .content (← IO.FS.readBinFile path)
  catch e =>
    match e with
    | .noFileOrDirectory .. => return .missing
    | _ => return .directory

/-- Reads the files that an invocation needs and carries it out. -/
def carryOut (invocation : Invocation) : IO Result := do
  let contents ← invocation.paths.mapM fun path => return (path, ← readPath path)
  return runInvocation (filesRead contents) invocation

def main (arguments : List String) : IO UInt32 := do
  let env : Environment :=
    { driver := ← IO.getEnv "OXIDE_GEO_DRIVER", database := ← IO.getEnv "DATABASE_URL" }
  let result ←
    match parse env arguments with
    | .ok invocation => carryOut invocation
    | .error e => pure (refuse e)
  for line in result.lines do
    IO.println line
  unless result.error.isEmpty do
    IO.eprintln result.error
  return UInt32.ofNat result.code
