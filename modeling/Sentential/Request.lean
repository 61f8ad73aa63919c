import Sentential.Circuit.Build
import Sentential.Formula.Unconditional
import Sentential.Settings.Basic
import Sentential.TruthTable.Verdict

/-!
# Requests

A request names an expression and its variables. `evaluate` runs it through every stage:
the variables are checked, the expression is read, the truth table is filled, the column of
results is judged, and the circuit is built. The first stage that fails decides the fault.
-/

namespace Sentential

/-- A request: an expression over declared variables, with or without step columns. -/
structure Request where
  expression : String
  names : List String
  showSteps : Option Bool
  deriving DecidableEq, Repr

/-- The complete answer to a request. -/
structure Evaluation where
  request : Request
  parsed : Parsed
  table : TruthTable
  verdict : Verdict
  simplified : Formula
  circuit : Circuit
  showSteps : Bool
  deriving DecidableEq, Repr

namespace Request

/-- Whether the table shows steps: the request decides, and otherwise the settings do. -/
def showsSteps (r : Request) (settings : Settings) : Bool := r.showSteps.getD settings.showSteps

/-- The steps that the table shows. -/
def steps (r : Request) (settings : Settings) (source : String) (names : List String) :
    Outcome (List Steps.Step) :=
  if r.showsSteps settings then Steps.build source names else .ok []

/-- Answers a request under the given settings. -/
def evaluate (r : Request) (settings : Settings) : Outcome Evaluation := do
  if Text.isBlankText r.expression then throw (.fault .emptyExpression)
  let names ← Variables.validate r.names settings.maxVariables
  let source := Text.trimmed r.expression
  let parsed ← parse source names
  let steps ← r.steps settings source names
  let table ← TruthTable.ofFormula parsed.formula source names steps
  let verdict ← Verdict.ofColumn table.results
  return ⟨r, parsed, table, verdict, parsed.formula.unconditional, parsed.formula.circuit,
    r.showsSteps settings⟩

end Request

end Sentential
