/-!
# Kinds of gates

A circuit has inverters and gates of two inputs. `GateType.value?` is the truth function of a
kind, defined on the number of inputs that the kind takes.
-/

namespace Sentential

/-- The kind of a gate. -/
inductive GateType where
  | and
  | or
  | not
  | nand
  | nor
  | xor
  | xnor
  deriving DecidableEq, Repr

namespace GateType

/-- The name of the kind in reports. -/
def name : GateType → String
  | and => "AND"
  | or => "OR"
  | not => "NOT"
  | nand => "NAND"
  | nor => "NOR"
  | xor => "XOR"
  | xnor => "XNOR"

/-- All kinds, in the order in which reports list them. -/
def all : List GateType := [and, or, not, nand, nor, xor, xnor]

theorem mem_all (t : GateType) : t ∈ all := by cases t <;> decide

/-- The kind with the given name. -/
def ofName? (s : String) : Option GateType := all.find? (·.name == s)

/-- The output for the given input values, if their number fits the kind. -/
def value? : GateType → List Bool → Option Bool
  | not, [a] => some (!a)
  | and, [a, b] => some (a && b)
  | or, [a, b] => some (a || b)
  | nand, [a, b] => some (!(a && b))
  | nor, [a, b] => some (!(a || b))
  | xor, [a, b] => some (a != b)
  | xnor, [a, b] => some (a == b)
  | _, _ => none

end GateType

end Sentential
