import Sentential.Failure
import Sentential.Settings.Basic

/-!
# Checking settings

Settings arrive as values of any shape. A draft holds one value for each setting, with the
default where nothing is given, and `Draft.check` accepts it or reports the first setting
that is wrong: the ceiling, then the style, then the switch for steps. A mapping becomes a
draft only if it has no unknown key.
-/

namespace Sentential.Settings

/-- Settings before they are checked. -/
structure Draft where
  maxVariables : Value := .int Variables.defaultCeiling
  style : Value := .text Style.trueFalse.name
  showSteps : Value := .bool false

/-- The key of the ceiling on variables. -/
def ceilingKey : String := "max_variables"

/-- The key of the output style. -/
def styleKey : String := "output_style"

/-- The key of the switch for steps. -/
def stepsKey : String := "show_steps"

/-- The keys of the settings. -/
def keys : List String := [ceilingKey, styleKey, stepsKey]

/-- The ceiling on variables that a value sets. -/
def checkCeiling : Value → Outcome Int
  | .int n =>
    if 1 ≤ n ∧ n ≤ hardCeiling then .ok n else .error (.settings (.ceilingOutOfRange n))
  | v => .error (.settings (.ceilingNotInteger v))

/-- The style that a value names. A collection cannot be looked up at all. -/
def checkStyle : Value → Outcome Style
  | .text s =>
    match Style.ofName? s with
    | some style => .ok style
    | none => .error (.settings (.unknownStyle (.text s)))
  | v => if v.isScalar then .error (.settings (.unknownStyle v)) else .error .styleNotScalar

/-- The switch for steps that a value sets. -/
def checkSteps : Value → Outcome Bool
  | .bool b => .ok b
  | v => .error (.settings (.stepsNotBoolean v))

/-- The settings of a draft that is in order. -/
def Draft.check (d : Draft) : Outcome Settings := do
  let maxVariables ← checkCeiling d.maxVariables
  let style ← checkStyle d.style
  let showSteps ← checkSteps d.showSteps
  return ⟨maxVariables, style, showSteps⟩

/-- The value under a key that is a text. -/
def lookup (entries : List (Value × Value)) (key : String) : Option Value :=
  (entries.find? fun (k, _) => k.isText key).map Prod.snd

/-- The entries with the value under the key in place of any that the key had. -/
def override (entries : List (Value × Value)) (key : String) (v : Value) : List (Value × Value) :=
  entries.filter (fun (k, _) => !k.isText key) ++ [(.text key, v)]

/-- The draft with the values of the known keys. -/
def Draft.ofEntries (entries : List (Value × Value)) : Draft :=
  let d : Draft := { }
  ⟨(lookup entries ceilingKey).getD d.maxVariables, (lookup entries styleKey).getD d.style,
    (lookup entries stepsKey).getD d.showSteps⟩

/-- The keys that no setting has. -/
def unknownKeys (entries : List (Value × Value)) : List Value :=
  (entries.map Prod.fst).filter fun k => !keys.any k.isText

/-- The texts among the values, if all of them are texts. -/
def textsOf (values : List Value) : Option (List String) := values.mapM Value.text?

/-- The settings of a mapping without unknown keys. -/
def ofEntries (entries : List (Value × Value)) : Outcome Settings :=
  match unknownKeys entries with
  | [] => (Draft.ofEntries entries).check
  | unknown =>
    match textsOf unknown with
    | some texts => .error (.settings (.unknownKeys (texts.mergeSort fun a b => decide (a ≤ b))))
    | none => .error .keysNotText

/-- The settings of a record that must have known fields only. -/
def ofFields (entries : List (Value × Value)) : Outcome Settings :=
  match unknownKeys entries with
  | [] => (Draft.ofEntries entries).check
  | _ => .error .unexpectedKey

end Sentential.Settings
