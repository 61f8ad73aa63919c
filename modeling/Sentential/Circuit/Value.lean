import Sentential.Circuit.Build
import Sentential.Formula.Evaluation

/-!
# Values of circuits

A signal has the value of its variable or of its gate, and a gate applies the truth function
of its kind to the values of its inputs. A signal has no value when a variable has none, when
a gate is missing or has the wrong number of inputs, or when the signal depends on itself: the
values are sought through at most as many gates as there are.

The circuit of a formula computes the formula with its conditionals read as disjunctions,
`Formula.conditionalsAsOr`.
-/

namespace Sentential

namespace Circuit

/-- The value of a signal that passes at most `fuel` gates. -/
def valueOf (c : Circuit) (a : Assignment) : Nat → Ref → Option Bool
  | _, .input name => a.lookup name
  | 0, .gate _ => none
  | fuel + 1, .gate id => do
    let g ← c.gates.find? (·.id == id)
    let values ← g.inputs.mapM (c.valueOf a fuel)
    g.type.value? values

/-- The value of the output. -/
def value (c : Circuit) (a : Assignment) : Option Bool := c.valueOf a c.gates.length c.output

end Circuit

/-- The formula with a disjunction in place of every conditional. -/
def Formula.conditionalsAsOr : Formula → Formula
  | var name => var name
  | not a => not a.conditionalsAsOr
  | binary .implies l r => binary .or l.conditionalsAsOr r.conditionalsAsOr
  | binary op l r => binary op l.conditionalsAsOr r.conditionalsAsOr

end Sentential
