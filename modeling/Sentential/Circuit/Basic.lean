import Sentential.Circuit.GateType
import Sentential.Failure

/-!
# Circuits

A circuit is a list of named gates. An input of a gate refers to another gate or to a
variable, and so does the output of the circuit. The connections repeat the inputs as edges,
and the counts say how many gates of each kind there are. A circuit may be made by hand:
names may then repeat or be missing, and the counts may be any numbers.
-/

namespace Sentential

/-- Where a signal comes from: a gate or a variable. -/
inductive Circuit.Ref where
  | gate (id : String)
  | input (name : String)
  deriving DecidableEq, Repr

/-- The gate that the signal comes from, if it comes from one. -/
def Circuit.Ref.gate? : Circuit.Ref → Option String
  | gate id => some id
  | input _ => none

/-- The name of the gate or of the variable. -/
def Circuit.Ref.label : Circuit.Ref → String
  | gate id => id
  | input name => name

/-- A gate with its inputs from left to right. -/
structure Circuit.Gate where
  id : String
  type : GateType
  inputs : List Circuit.Ref
  deriving DecidableEq, Repr

/-- The place of an input at its gate. -/
inductive Circuit.Slot where
  | single
  | left
  | right
  deriving DecidableEq, Repr

/-- The name of the place in reports. -/
def Circuit.Slot.name : Circuit.Slot → String
  | single => "single"
  | left => "left"
  | right => "right"

/-- An edge from a signal to an input of the gate `target`. -/
structure Circuit.Connection where
  source : Circuit.Ref
  target : String
  slot : Circuit.Slot
  deriving DecidableEq, Repr

/-- A circuit with one output. -/
structure Circuit where
  gates : List Circuit.Gate
  connections : List Circuit.Connection
  output : Circuit.Ref
  counts : List (GateType × Int)
  deriving DecidableEq, Repr

namespace Circuit

/-- The gates that feed a gate, from left to right. -/
def Gate.feeders (g : Gate) : List String := g.inputs.filterMap Ref.gate?

/-- The first gate with the given name. -/
def gate (c : Circuit) (id : String) : Outcome Gate :=
  match c.gates.find? (·.id == id) with
  | some g => .ok g
  | none => .error (.unknownGate id)

/-- The last gate with the given name. -/
def lastGate (c : Circuit) (id : String) : Outcome Gate :=
  match c.gates.reverse.find? (·.id == id) with
  | some g => .ok g
  | none => .error (.unknownGate id)

/-- The kinds with a positive count, in the order of the counts. -/
def presentCounts (c : Circuit) : List (GateType × Int) := c.counts.filter fun (_, n) => decide (0 < n)

end Circuit

end Sentential
