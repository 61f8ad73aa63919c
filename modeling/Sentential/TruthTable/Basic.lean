import Sentential.Steps

/-!
# Truth tables

A row holds an assignment, the values of the intermediate columns and of the expression
under it, and the result. The columns of a table are its variables, its steps and the
expression, in this order.
-/

namespace Sentential

/-- One row of a truth table. -/
structure TruthTable.Row where
  index : Nat
  assignment : Assignment
  values : List (String × Bool)
  result : Bool
  deriving DecidableEq, Repr

/-- A truth table with named columns. -/
structure TruthTable where
  names : List String
  expression : String
  steps : List String
  rows : List TruthTable.Row
  deriving DecidableEq, Repr

namespace TruthTable

/-- The results of the rows. -/
def results (t : TruthTable) : List Bool := t.rows.map (·.result)

/-- The headings of the columns. -/
def columns (t : TruthTable) : List String := t.names ++ t.steps ++ [t.expression]

/-- The row of an assignment: the steps and the expression are evaluated under it. -/
def rowOf (formula : Formula) (expression : String) (steps : List Steps.Step) (index : Nat)
    (a : Assignment) : Outcome Row := do
  let values ← Steps.evaluate steps a
  let result ← formula.evaluate a
  return ⟨index, a, Record.put values expression result, result⟩

/-- The table of a formula over all assignments of the variables. -/
def ofFormula (formula : Formula) (expression : String) (names : List String)
    (steps : List Steps.Step) : Outcome TruthTable := do
  let rows ← (Variables.assignments names).zipIdx.mapM fun (a, index) =>
    rowOf formula expression steps index a
  return ⟨names, expression, steps.map (·.label), rows⟩

end TruthTable

end Sentential
