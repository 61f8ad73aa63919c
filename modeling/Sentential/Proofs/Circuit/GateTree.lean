import Sentential.Circuit.Build

/-!
# Trees of gates

The gates of a formula form a tree, and the tree determines the whole circuit. The gates of a part bear consecutive
numbers, those of the left operand before those of the right one, so that the part can be written down from its tree
and the number of its root (`Circuit.Part.ofTree`).
-/

namespace Sentential

/-- A tree of gates over variables. -/
inductive GateTree where
  | input (name : String)
  | not (operand : GateTree)
  | pair (type : GateType) (left right : GateTree)
  deriving DecidableEq, Repr

namespace GateTree

/-- The tree with its output negated. The negation of the connective `op` at the root of the formula
that the tree comes from may be one gate. -/
def negated (op : Connective) (left right : GateTree) : GateTree :=
  match op.negatedGate? with
  | some type => pair type left right
  | none => not (pair op.gate left right)

/-- The number of gates. -/
def size : GateTree → Nat
  | input _ => 0
  | not a => a.size + 1
  | pair _ l r => l.size + r.size + 1

end GateTree

/-- The gates of a formula. -/
def Formula.gateTree : Formula → GateTree
  | var name => .input name
  | not (binary op l r) => GateTree.negated op l.gateTree r.gateTree
  | not (not a) => .not (Formula.not a).gateTree
  | not (var name) => .not (.input name)
  | binary op l r => .pair op.gate l.gateTree r.gateTree

namespace Circuit

/-- The gates and connections of a part of a circuit, and the signal that the part gives. -/
structure Part where
  output : Ref
  gates : List Gate
  connections : List Connection
  deriving DecidableEq, Repr

/-- The part for a tree whose root is the gate number `n`. -/
def Part.ofTree (n : Nat) : GateTree → Part
  | .input name => ⟨.input name, [], []⟩
  | .not a =>
    let p := ofTree (n + 1) a
    ⟨.gate (gateName n), ⟨gateName n, .not, [p.output]⟩ :: p.gates,
      p.connections ++ [⟨p.output, gateName n, .single⟩]⟩
  | .pair type l r =>
    let p := ofTree (n + 1) l
    let q := ofTree (n + 1 + l.size) r
    ⟨.gate (gateName n), ⟨gateName n, type, [p.output, q.output]⟩ :: (p.gates ++ q.gates),
      p.connections ++ [⟨p.output, gateName n, .left⟩] ++ (q.connections ++ [⟨q.output, gateName n, .right⟩])⟩

/-- The number of gates of each kind. -/
def countsOf (gates : List Gate) : List (GateType × Int) :=
  GateType.all.map fun t => (t, (gates.countP (·.type == t) : Nat))

/-- The circuit of a tree of gates. -/
def ofTree (t : GateTree) : Circuit :=
  let p := Part.ofTree 1 t
  ⟨p.gates, p.connections, p.output, countsOf p.gates⟩

/-- The parts of a tree have as many gates as the tree. -/
@[simp] theorem Part.length_gates_ofTree (n : Nat) (t : GateTree) :
    (Part.ofTree n t).gates.length = t.size := by
  induction t generalizing n with
  | input name => rfl
  | not a ih => simp [Part.ofTree, GateTree.size, ih]
  | pair type l r ihl ihr => simp [Part.ofTree, GateTree.size, ihl, ihr]

end Circuit

end Sentential
