import Sentential.Failure

/-!
# Verdicts

A column of results that are all true is a tautology, one that holds no true result a
contradiction, and any other a contingency. A column without rows has no verdict.
-/

namespace Sentential

/-- What a column of results shows about a formula. -/
inductive Verdict where
  | tautology
  | contradiction
  | contingency
  deriving DecidableEq, Repr

namespace Verdict

/-- The word for the verdict. -/
def name : Verdict → String
  | tautology => "Tautology"
  | contradiction => "Contradiction"
  | contingency => "Contingency"

/-- The verdict with its gloss. -/
def label : Verdict → String
  | tautology => "Tautology (always true)"
  | contradiction => "Contradiction (always false)"
  | contingency => "Contingency (sometimes true)"

/-- The verdict on a column of results. -/
def ofColumn (column : List Bool) : Outcome Verdict :=
  if column.isEmpty then .error .emptyColumn
  else if column.all id then .ok tautology
  else if column.any id then .ok contingency
  else .ok contradiction

end Verdict

end Sentential
