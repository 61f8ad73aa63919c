import Sentential.Settings.Value

/-!
# Faults of a configuration

A configuration is refused for the file it comes from, for its shape, or for a value out of
bounds. The message is all that a report shows, and a fault that has none is not reported: the
operation breaks off where it puts the fault in words.
-/

namespace Sentential.Settings

/-- The environment variable that names a configuration file. -/
def fileVariable : String := "PROPLOGIC_CONFIG"

/-- The environment variable that overrides the ceiling on variables. -/
def ceilingVariable : String := "PROPLOGIC_MAX_VARIABLES"

/-- What is wrong with a configuration. -/
inductive Fault where
  /-- The ceiling is not an integer. -/
  | ceilingNotInteger (got : Value)
  /-- The ceiling is out of bounds. -/
  | ceilingOutOfRange (got : Int)
  /-- The output style is none of the known ones. -/
  | unknownStyle (got : Value)
  /-- The switch for step columns is no truth value. -/
  | stepsNotBoolean (got : Value)
  /-- Keys that no setting has. -/
  | unknownKeys (keys : List String)
  /-- The file that a caller names does not exist. -/
  | fileMissing (path : String)
  /-- The file that the environment names does not exist. -/
  | namedFileMissing (path : String)
  /-- The file is no document. -/
  | unreadable (path : String)
  /-- The document is no mapping. -/
  | topLevelNotMapping (path : String)
  /-- The section for the engine is no mapping. -/
  | sectionNotMapping (path : String)
  /-- The ceiling in the environment is not an integer. -/
  | overrideNotInteger (got : String)
  deriving Repr

/-- The known output styles as messages list them. -/
def knownStyles : String := "['01', 'TF', 'VF']"

/-- The largest ceiling that a configuration may set. -/
def hardCeiling : Int := 20

/-- The sentence that reports a fault, if the value that it shows can be shown. -/
def Fault.message? : Fault → Option String
  | ceilingNotInteger got => got.shown?.map fun s => "max_variables must be an integer, got " ++ s
  | ceilingOutOfRange got =>
    (Value.shownInt? got).map fun s => "max_variables must be within [1, " ++ toString hardCeiling ++ "], got " ++ s
  | unknownStyle got => got.shown?.map fun s => "output_style must be one of " ++ knownStyles ++ ", got " ++ s
  | stepsNotBoolean got => got.shown?.map fun s => "show_steps must be a boolean, got " ++ s
  | unknownKeys keys => some ("unknown configuration keys: " ++ ", ".intercalate keys)
  | fileMissing path => some ("config file not found: " ++ path)
  | namedFileMissing path => some (fileVariable ++ " points to a missing file: " ++ path)
  | unreadable path => some ("error parsing YAML file: " ++ path)
  | topLevelNotMapping path => some ("malformed config file: top level must be a mapping in " ++ path)
  | sectionNotMapping path => some ("malformed config file: \x27engine\x27 must be a mapping in " ++ path)
  | overrideNotInteger got => some (ceilingVariable ++ " must be an integer, got " ++ Text.quoted got)

end Sentential.Settings
