import Sentential.TruthTable.Render
import Sentential.Variables

/-!
# Settings

The settings bound the number of variables, choose the output style, and say whether tables
show their intermediate columns.
-/

namespace Sentential

/-- What a configuration sets. -/
structure Settings where
  maxVariables : Int := Variables.defaultCeiling
  style : Style := .trueFalse
  showSteps : Bool := false
  deriving DecidableEq, Repr

end Sentential
