import Sentential.Formula.Evaluation
import Sentential.Settings.Value

/-!
# Sketches of formulas

A caller may assemble a tree from parts that do not fit: the wrong operator at a node, or a
plain text where a formula belongs. `Sketch.unary` and `Sketch.join` refuse an operator
of the wrong arity when the node is made. A text among the leaves is noticed only when
the tree is used: evaluation reports it where it meets it, and `formula?` reports the
leftmost one.
-/

namespace Sentential

/-- A tree whose leaves are variables or texts that are no formula. -/
inductive Sketch where
  | var (name : String)
  | text (s : String)
  | not (operand : Sketch)
  | binary (op : Connective) (left right : Sketch)
  deriving DecidableEq, Repr

namespace Sketch

/-- A node with one operand. -/
def unary (op : Operator) (operand : Sketch) : Outcome Sketch :=
  match op with
  | .not => .ok (not operand)
  | .binary c => .error (.notUnary (.binary c))

/-- A node with two operands. -/
def join (op : Operator) (left right : Sketch) : Outcome Sketch :=
  match op with
  | .not => .error .notBinary
  | .binary c => .ok (binary c left right)

/-- The sketch as a formula, or the leftmost text in it. -/
def formula? : Sketch → Except String Formula
  | var name => .ok (.var name)
  | text s => .error s
  | not a => do
    let f ← a.formula?
    return .not f
  | binary op l r => do
    let f ← l.formula?
    let g ← r.formula?
    return .binary op f g

/-- The value under an assignment; the leftmost leaf without a value is reported. -/
def evaluate (a : Assignment) : Sketch → Outcome Bool
  | var name => (Formula.var name).evaluate a
  | text _ => .error (.fault .notEvaluable)
  | not s => do
    let b ← s.evaluate a
    return !b
  | binary op l r => do
    let x ← l.evaluate a
    let y ← r.evaluate a
    return op.apply x y

/-- The formula as a sketch. -/
def ofFormula : Formula → Sketch
  | .var name => var name
  | .not a => not (ofFormula a)
  | .binary op l r => binary op (ofFormula l) (ofFormula r)

@[simp] theorem formula?_ofFormula (f : Formula) : (ofFormula f).formula? = .ok f := by
  induction f with
  | var name => rfl
  | not a ih => rw [ofFormula, formula?, ih]; rfl
  | binary op l r ihl ihr => rw [ofFormula, formula?, ihl, ihr]; rfl

@[simp] theorem evaluate_ofFormula (a : Assignment) (f : Formula) :
    (ofFormula f).evaluate a = f.evaluate a := by
  induction f with
  | var name => rfl
  | not g ih => simp [ofFormula, evaluate, Formula.evaluate, ih]
  | binary op l r ihl ihr => simp [ofFormula, evaluate, Formula.evaluate, ihl, ihr]

end Sketch

end Sentential
