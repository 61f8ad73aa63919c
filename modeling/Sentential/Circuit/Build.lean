import Sentential.Circuit.Basic
import Sentential.Formula.Sketch

/-!
# Building circuits

Each connective of a formula becomes one gate, except that a negation directly on a conjunction,
a disjunction or an exclusive or joins it in one gate with the negated output. The conditional
has no gate of its own: it is modelled by an OR gate without an inverter on its left input.

The gates are named `gate1`, `gate2` and so on from the root, the left operand before the right
one. A gate has its name, its place in the list and its part in the counts before its operands
are built, and it is put into its place when they are done. A connection is listed when the operand
that it comes from is done.
-/

namespace Sentential

/-- The gate of a connective. -/
def Connective.gate : Connective → GateType
  | .and => .and
  | .or => .or
  | .xor => .xor
  | .implies => .or
  | .iff => .xnor

/-- The gate of a negated connective, where one gate does both. -/
def Connective.negatedGate? : Connective → Option GateType
  | .and => some .nand
  | .or => some .nor
  | .xor => some .xnor
  | .implies => none
  | .iff => none

namespace Circuit

/-- The name of the gate with number `n`. -/
def gateName (n : Nat) : String := "gate" ++ toString n

/-- A circuit that is being built. -/
structure Draft where
  /-- The number of the gate that was named last. -/
  last : Nat := 0
  /-- A place for each gate that has a name, empty as long as its operands are being built. -/
  places : List (Option Gate) := []
  connections : List Connection := []
  /-- The number of gates of each kind that have a name. -/
  counts : List (GateType × Int) := GateType.all.map fun t => (t, 0)
  deriving DecidableEq, Repr

namespace Draft

/-- The draft with one more gate of the kind, whose place is empty. -/
def reserve (d : Draft) (type : GateType) : Draft where
  last := d.last + 1
  places := d.places ++ [none]
  connections := d.connections
  counts := d.counts.map fun (t, n) => (t, if t = type then n + 1 else n)

/-- The draft with one more connection. -/
def connect (d : Draft) (c : Connection) : Draft := { d with connections := d.connections ++ [c] }

/-- The draft with a gate in its place. -/
def fill (d : Draft) (place : Nat) (g : Gate) : Draft := { d with places := d.places.set place (some g) }

/-- The circuit of a draft. Places that are empty do not count. -/
def circuit (d : Draft) (output : Ref) : Circuit := ⟨d.places.filterMap id, d.connections, output, d.counts⟩

end Draft

/-- Names a gate of the kind. It gives the name and the place of the gate. -/
def allocate (type : GateType) : StateM Draft (String × Nat) := do
  let d ← get
  set (d.reserve type)
  return (gateName (d.last + 1), d.places.length)

/-- Builds an operand and connects its signal to the gate `target`. -/
def link (operand : StateM Draft Ref) (target : String) (slot : Slot) : StateM Draft Ref := do
  let source ← operand
  modify (·.connect ⟨source, target, slot⟩)
  return source

/-- Builds an inverter behind an operand. -/
def inverter (operand : StateM Draft Ref) : StateM Draft Ref := do
  let (id, place) ← allocate .not
  let source ← link operand id .single
  modify (·.fill place ⟨id, .not, [source]⟩)
  return .gate id

/-- Builds a gate of two inputs behind its operands. -/
def junction (type : GateType) (left right : StateM Draft Ref) : StateM Draft Ref := do
  let (id, place) ← allocate type
  let l ← link left id .left
  let r ← link right id .right
  modify (·.fill place ⟨id, type, [l, r]⟩)
  return .gate id

end Circuit

/-- Builds the gates of a formula and gives its signal. -/
def Formula.assemble : Formula → StateM Circuit.Draft Circuit.Ref
  | var name => return .input name
  | not (binary op l r) =>
    match op.negatedGate? with
    | some type => Circuit.junction type l.assemble r.assemble
    | none => Circuit.inverter (binary op l r).assemble
  | not a => Circuit.inverter a.assemble
  | binary op l r => Circuit.junction op.gate l.assemble r.assemble

/-- The circuit of a formula. -/
def Formula.circuit (f : Formula) : Circuit :=
  let (output, d) := f.assemble.run { }
  d.circuit output

/-- The circuit of a sketch; the leftmost text in it has no gate. -/
def Sketch.circuit (s : Sketch) : Outcome Circuit :=
  match s.formula? with
  | .ok f => .ok f.circuit
  | .error t => .error (.fault (.noGate t))

/-- A builder of circuits, which serves once. -/
structure Circuit.Builder where
  used : Bool := false
  deriving DecidableEq, Repr

/-- Builds the circuit of a sketch from an empty draft. An attempt that fails uses the builder up too. -/
def Circuit.Builder.build (b : Circuit.Builder) (s : Sketch) : Circuit.Builder × Outcome Circuit :=
  if b.used then (b, .error .builderSpent) else (⟨true⟩, s.circuit)

end Sentential
