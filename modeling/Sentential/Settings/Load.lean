import Sentential.Log
import Sentential.Settings.Draft
import Sentential.Settings.Path
import Sentential.Text.Integer

/-!
# Loading settings

Settings come from one file: the file that the caller names, else the one that the
environment names, else the default file if there is one. A named file that is missing is
a fault and never a reason to try the next source. The document in the file is read by a
function that the caller supplies. Its settings stand under the key for the engine, or at
the top if there is no such key. The environment may override the ceiling on variables,
whatever the source.
-/

namespace Sentential.Settings

/-- Where a settings file is: at a path, or with the program itself. -/
inductive Location where
  | path (p : Path)
  | shipped
  deriving DecidableEq, Repr

/-- The name of a location in messages. -/
def Location.text : Location → String
  | path p => p.text
  | shipped => "config/engine.yaml"

/-- What stands at a location: a file with its text, or a directory. -/
inductive Entry where
  | file (text : String)
  | directory
  deriving DecidableEq, Repr

/-- What loading can see: the files, the environment, and where the default file is. Looking a name up always
succeeds: it shows what stands there, or that nothing does. -/
structure World where
  entry : Location → Option Entry
  configFile : Option String
  ceiling : Option String
  defaultFile : Location

/-- The text of the settings file that comes with the program. -/
def shippedText : String := "engine:\n  max_variables: 6\n  output_style: TF\n  show_steps: false\n"

/-- The value of an environment variable that is set to something. -/
def setting? : Option String → Option String
  | some s => if s = "" then none else some s
  | none => none

namespace World

/-- The file to load, if there is one. The look-ups that decide this do not fail. -/
def source (w : World) (path : Option String) : Outcome (Option (Location × Entry)) :=
  match path with
  | some s =>
    let l := Location.path (Path.ofText s)
    match w.entry l with
    | some e => .ok (some (l, e))
    | none => .error (.settings (.fileMissing l.text))
  | none =>
    match setting? w.configFile with
    | some s =>
      let l := Location.path (Path.ofText s)
      match w.entry l with
      | some e => .ok (some (l, e))
      | none => .error (.settings (.namedFileMissing l.text))
    | none => .ok ((w.entry w.defaultFile).map fun e => (w.defaultFile, e))

end World

/-- The key of the section for the engine. -/
def sectionKey : String := "engine"

/-- The entries of the section that holds the settings. -/
def sectionOf (l : Location) : Value → Outcome (List (Value × Value))
  | .null => .ok []
  | .mapping entries =>
    match lookup entries sectionKey with
    | none => .ok entries
    | some (.mapping inner) => .ok inner
    | some _ => .error (.settings (.sectionNotMapping l.text))
  | _ => .error (.settings (.topLevelNotMapping l.text))

/-- The entries of the settings file at a location. -/
def readEntry (read : String → Option Value) (l : Location) : Entry → Outcome (List (Value × Value))
  | .directory => .error (.isDirectory l.text)
  | .file text =>
    match read text with
    | some v => sectionOf l v
    | none => .error (.settings (.unreadable l.text))

/-- The entries of the file to load, with its location. Without a file there are no entries. -/
def document (read : String → Option Value) (w : World) (path : Option String) :
    Outcome (Option Location × List (Value × Value)) := do
  match ← w.source path with
  | some (l, e) => do return (some l, ← readEntry read l e)
  | none => return (none, [])

/-- The entries with the ceiling that the environment sets. -/
def overridden (w : World) (entries : List (Value × Value)) : Outcome (List (Value × Value)) :=
  match setting? w.ceiling with
  | some s =>
    match Text.integer? s.toList with
    | some n => .ok (override entries ceilingKey (.int n))
    | none => .error (.settings (.overrideNotInteger s))
  | none => .ok entries

/-- Loads the settings. -/
def load (read : String → Option Value) (w : World) (path : Option String) : Outcome Settings := do
  let (_, entries) ← document read w path
  ofEntries (← overridden w entries)

/-- The log of loading: a note on the file, once its document is read. -/
def loadTrace (read : String → Option Value) (w : World) (path : Option String) : List Log.Entry :=
  match document read w path with
  | .ok (some l, _) => [⟨.debug, "proplogic.config", "loaded engine config from " ++ l.text⟩]
  | _ => []

end Sentential.Settings
