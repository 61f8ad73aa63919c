import Sentential.Cli.Run
import Sentential.Files
import Sentential.Yaml.Document

/-!
# Sessions

A session has a directory of files, an environment, and current settings. Its steps change
files and the environment, load settings, evaluate requests under the current settings, and
run command lines, which load settings of their own. A load that fails leaves the current
settings as they were.
-/

namespace Sentential

/-- The state of a session. -/
structure Session where
  files : Files := []
  environment : List (String × String) := []
  defaultFile : Settings.Location := .shipped
  settings : Settings := { }

namespace Session

/-- One step of a session. -/
inductive Step where
  | write (name text : String)
  | remove (name : String)
  | setVariable (name value : String)
  | unsetVariable (name : String)
  | setDefaultFile (path : String)
  | load (path : Option String)
  | evaluate (r : Request)
  | run (args : List String)
  deriving DecidableEq, Repr

/-- What a step answers. -/
inductive Answer where
  | done
  | settings (s : Settings)
  | table (text label : String)
  | stopped (s : Cli.Stop)
  | reply (r : Cli.Reply)
  deriving DecidableEq, Repr

/-- What loading sees in a session. -/
def world (s : Session) : Settings.World where
  entry
    | .path p => s.files.find? p
    | .shipped => some (.file Settings.shippedText)
  configFile := s.environment.lookup Settings.fileVariable
  ceiling := s.environment.lookup Settings.ceilingVariable
  defaultFile := s.defaultFile

/-- The session with changed files, or unchanged if the change fails. -/
def withFiles (s : Session) (changed : Outcome Files) : Session × Outcome Answer :=
  match changed with
  | .ok files => ({ s with files := files }, .ok .done)
  | .error e => (s, .error e)

/-- The table of a request in the style of the current settings, with its verdict. -/
def evaluated (s : Session) (r : Request) : Outcome Answer := do
  let e ← r.evaluate s.settings
  return .table (← e.table.render s.settings.style.name) e.verdict.label

/-- The answer of a command line. -/
def ran (s : Session) (args : List String) : Outcome Answer :=
  match Cli.Invocation.ofArguments args with
  | .ok i => Answer.reply <$> i.run Yaml.read s.world
  | .error stop => .ok (.stopped stop)

/-- Takes one step. -/
def step (s : Session) : Step → Session × Outcome Answer
  | .write name text => s.withFiles (s.files.write (Path.ofText name) text)
  | .remove name => s.withFiles (s.files.remove (Path.ofText name))
  | .setVariable name value => ({ s with environment := Record.put s.environment name value }, .ok .done)
  | .unsetVariable name => ({ s with environment := s.environment.filter (·.1 != name) }, .ok .done)
  | .setDefaultFile path => ({ s with defaultFile := .path (Path.ofText path) }, .ok .done)
  | .load path =>
    match Settings.load Yaml.read s.world path with
    | .ok settings => ({ s with settings := settings }, .ok (.settings settings))
    | .error e => (s, .error e)
  | .evaluate r => (s, s.evaluated r)
  | .run args => (s, s.ran args)

/-- Takes the steps one after the other and collects their answers. -/
def steps (s : Session) : List Step → List (Outcome Answer)
  | [] => []
  | next :: rest =>
    let (s, answer) := s.step next
    answer :: s.steps rest

end Session

end Sentential
