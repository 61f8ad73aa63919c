import Sentential.Failure
import Sentential.Formula.Basic

/-!
# Values of formulas

`Formula.evaluate` computes the value under an assignment, which may leave variables without
a value: the leftmost such variable is reported. `Formula.holds` is the value under a
valuation of all names there are. On assignments that bind every variable of the formula
the two agree.
-/

namespace Sentential

/-- Values for some names. The first entry for a name counts. -/
abbrev Assignment := List (String × Bool)

namespace Formula

/-- The value under a valuation of all names. -/
def holds (v : String → Bool) : Formula → Bool
  | var name => v name
  | not a => !a.holds v
  | binary op l r => op.apply (l.holds v) (r.holds v)

/-- The value under an assignment; both operands are evaluated, the left one first. -/
def evaluate (a : Assignment) : Formula → Outcome Bool
  | var name =>
    match a.lookup name with
    | some b => .ok b
    | none => .error (.fault (.unbound name))
  | not f => do
    let b ← f.evaluate a
    return !b
  | binary op l r => do
    let x ← l.evaluate a
    let y ← r.evaluate a
    return op.apply x y

end Formula

/-- An assignment and a valuation agree on the names that the assignment binds. -/
def Assignment.Extends (v : String → Bool) (a : Assignment) : Prop :=
  ∀ name b, a.lookup name = some b → v name = b

end Sentential
