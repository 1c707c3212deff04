import SearchDsl.CommandLine.Run

/-!
# The program

Reads the files that the command line names and prints what the run of `SearchDsl.CommandLine.Run`
answers: the body on the standard output, the counters and the errors beside it. It ends with 1 if
the run fails, and with 2 if the command line itself is refused.
-/

namespace SearchDsl

/-- The text of a file, if it can be read. -/
def readText? (file : String) : IO (Option String) := do
  try return some (← IO.FS.readFile file) catch _ => return none

end SearchDsl

open SearchDsl in
/-- Runs the command line. -/
def main (words : List String) : IO UInt32 := do
  let config ← IO.getEnv Invocation.configVariable
  let mappings ← IO.getEnv Invocation.mappingsVariable
  let environment (key : String) : Option String :=
    if key = Invocation.configVariable then config
    else if key = Invocation.mappingsVariable then mappings
    else none
  match Invocation.ofWords? environment words with
  | none =>
    IO.eprintln "usage: --mappings FILE --index INDEX [options]"
    return 2
  | some invocation =>
    let named := invocation.mappingsFile :: invocation.configFile.toList
    let texts ← named.mapM fun file => do return (file, ← readText? file)
    match invocation.run fun file => (texts.lookup file).join with
    | .error fault =>
      IO.eprintln ("Error: " ++ fault.message)
      return 1
    | .ok report =>
      IO.println report.body
      for line in report.metrics do IO.eprintln line
      return 0
