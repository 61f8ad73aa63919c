import Sentential.Formula.Sketch

/-!
# Formulas without conditionals

`Formula.unconditional` expresses the conditional and the biconditional by negation,
conjunction and disjunction: `a → b` becomes `¬a ∨ b`, and `a ↔ b` becomes
`(¬a ∨ b) ∧ (¬b ∨ a)`. Double negations are dropped on the way; nothing else is
simplified. `Formula.Unconditional` describes the form that results.
-/

namespace Sentential.Formula

/-- The negation of a formula; the negation of a negation is its operand. -/
def negation : Formula → Formula
  | not a => a
  | f => not f

/-- The formula with its conditionals expressed by negation, conjunction and disjunction. -/
def unconditional : Formula → Formula
  | var name => var name
  | not a => a.unconditional.negation
  | binary .implies l r => binary .or l.unconditional.negation r.unconditional
  | binary .iff l r =>
    binary .and (binary .or l.unconditional.negation r.unconditional)
      (binary .or r.unconditional.negation l.unconditional)
  | binary op l r => binary op l.unconditional r.unconditional

/-- The formula is a negation. -/
def isNegation : Formula → Bool
  | not _ => true
  | _ => false

/-- No conditional, no biconditional, and no negation directly under a negation. -/
def Unconditional : Formula → Prop
  | var _ => True
  | not a => a.isNegation = false ∧ a.Unconditional
  | binary op l r => op ≠ .implies ∧ op ≠ .iff ∧ l.Unconditional ∧ r.Unconditional

end Sentential.Formula

/-- A sketch with its conditionals expressed; a text in it is no formula. -/
def Sentential.Sketch.unconditional (s : Sketch) : Outcome Formula :=
  match s.formula? with
  | .ok f => .ok f.unconditional
  | .error _ => .error (.fault .notExpressible)
