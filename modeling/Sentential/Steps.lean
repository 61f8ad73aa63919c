import Sentential.Parse
import Sentential.Record
import Sentential.Variables

/-!
# Intermediate columns

A table with steps shows, before the column of the whole expression, a column for each
bracketed group of the expression as it was typed, for each declared variable, and for each
variable's negation. A label stands once, the expression itself is no step, and the columns
are ordered by length of label, equal lengths by first appearance.
-/

namespace Sentential.Steps

/-- One intermediate column: its label and the formula that it shows. -/
structure Step where
  label : String
  formula : Formula
  deriving DecidableEq, Repr

/-- The bracketed groups of a text, brackets included, in the order in which they close. -/
def groups (source : List Char) : Outcome (List (List Char)) := do
  Token.checkBalanced source
  return (Bracket.spans source).map (Bracket.slice source)

/-- The label of a variable's negation. -/
def negated (name : String) : String := Operator.not.text ++ name

/-- The candidate labels: groups, then each variable and its negation. -/
def candidates (source : String) (names : List String) : Outcome (List String) := do
  let gs ← groups source.toList
  return gs.map String.ofList ++ names.flatMap fun name => [name, negated name]

/-- The labels of the steps, shortest first. -/
def labels (source : String) (names : List String) : Outcome (List String) := do
  let all ← candidates source names
  let distinct := (all.filter (· ≠ Text.trimmed source)).eraseDups
  return distinct.mergeSort fun a b => decide (a.length ≤ b.length)

/-- The steps of an expression: each label is read as a formula of its own. -/
def build (source : String) (names : List String) : Outcome (List Step) := do
  (← labels source names).mapM fun label => do
    return ⟨label, (← parse label names).formula⟩

/-- The values of the steps under an assignment, by label. -/
def evaluate (steps : List Step) (a : Assignment) : Outcome (List (String × Bool)) :=
  steps.foldlM (fun values step => do return Record.put values step.label (← step.formula.evaluate a)) []

end Sentential.Steps
