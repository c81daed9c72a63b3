import InstrTable.CommandLine

/-!
The program: it reads the files that a command may need and prints what the command
gives.
-/

open InstrTable CommandLine

/-- Where the tables for targets are. -/
def directory : String := "data"

/-- The text of a file, or why it cannot be read. -/
def readFile (path : String) : IO (Except Failure String) :=
  try
    return .ok (← IO.FS.readFile path)
  catch
    | .noFileOrDirectory .. => return .error .missing
    | e => return .error (.other (toString e))

/-- An environment with some files and no others. -/
def environmentOf (files : List (String × Except Failure String)) : Environment :=
  { Files.environment (fun path => ((files.lookup path).bind (·.toOption))) directory with
    opened := fun path => (files.lookup path).getD (.error .missing) }

def finish (outcome : Outcome) : IO UInt32 := do
  IO.print outcome.output
  IO.eprint outcome.warnings
  return outcome.status.toUInt32

def main (arguments : List String) : IO UInt32 := do
  match Command.ofArguments .dropsEquals arguments with
  | .error e => finish (usageOutcome e)
  | .ok command =>
    let env := environmentOf []
    -- the tests go without a path, but use a table
    let paths := (command.path? env).toList ++ ["arm", "x86"].map env.builtin
    let files ← paths.mapM fun path => return (path, ← readFile path)
    match command.run (environmentOf files) with
    | .ok outcome => finish outcome
    | .error e =>
      IO.eprintln e.message
      return 1
