import Sentential.Cli.Run
import Sentential.Yaml.Document

/-!
# The program

The outer layer: it fetches the settings files that the command line and the environment name,
carries the command out, and prints what it leaves.
-/

namespace Sentential

/-- What stands at a path on the disk. What is there but cannot be read counts as a directory. -/
def entryOnDisk (p : Path) : IO (Option Settings.Entry) := do
  try
    return some (.file (← IO.FS.readFile p.text))
  catch e =>
    match e with
    | .noFileOrDirectory .. => return none
    | _ => return some .directory

/-- The world with the entries at the given paths. -/
def worldOnDisk (paths : List Path) : IO Settings.World := do
  let entries ← paths.mapM fun p => return (p, ← entryOnDisk p)
  let configFile ← IO.getEnv Settings.fileVariable
  let ceiling ← IO.getEnv Settings.ceilingVariable
  return {
    entry
      | .path p => (entries.lookup p).bind id
      | .shipped => some (.file Settings.shippedText)
    configFile := configFile
    ceiling := ceiling
    defaultFile := .shipped }

/-- The lines that show how the program is called. -/
def usage : String :=
  "usage: sentential [-h] [--config CONFIG] [-v] [-q] COMMAND ...\n" ++
  "commands:\n" ++
  "  table EXPRESSION --vars VARS [--json] [--steps] [--style TF|VF|01]\n" ++
  "  classify EXPRESSION --vars VARS [--json]\n" ++
  "  gates EXPRESSION --vars VARS [--json]\n" ++
  "  normalize EXPRESSION\n"

/-- Prints the usage: as output unless the command line was wrong. -/
def printUsage (stop : Cli.Stop) : IO Unit :=
  match stop with
  | .misuse => IO.eprint usage
  | _ => IO.print usage

/-- Carries an invocation out and gives its exit code. -/
def carryOut (i : Cli.Invocation) : IO UInt32 := do
  let named := [i.config, Settings.setting? (← IO.getEnv Settings.fileVariable)].filterMap id
  match i.run Yaml.read (← worldOnDisk (named.map Path.ofText)) with
  | .ok r =>
    IO.print r.output
    IO.eprint r.errorOutput
    return r.exit.toUInt32
  | .error e =>
    IO.eprintln (e.message?.getD "the settings cannot be used")
    return 1

end Sentential

/-- Runs the program on its command line. -/
def main (args : List String) : IO UInt32 := do
  match Sentential.Cli.Invocation.ofArguments args with
  | .ok i => Sentential.carryOut i
  | .error stop =>
    Sentential.printUsage stop
    return stop.exit.toUInt32
