import Sentential.Circuit.Basic
import Sentential.Record

/-!
# Levels of a circuit

The gate of the output is level 0, and a gate that feeds a gate of level `n` lies at `n + 1`
or deeper: its level is the length of the longest way to it from the output. Level by level
the circuit is swept from the output; a gate met again moves to the deeper level. In a
circuit without a loop a sweep ends after as many steps as there are gates, so that a
longer one proves a loop.
-/

namespace Sentential.Circuit

/-- The names of the gates that feed the named gates, each once. -/
def feedersOf (c : Circuit) (ids : List String) : Outcome (List String) := do
  let gates ← ids.mapM c.lastGate
  return (gates.flatMap Gate.feeders).eraseDups

/-- The sweep from the gates `ids`, which lie at `level`, over at most `fuel` levels. -/
def sweep (c : Circuit) : Nat → Nat → List String → List (String × Nat) → Outcome (List (String × Nat))
  | _, _, [], levels => .ok levels
  | 0, _, _ :: _, _ => .error .cyclic
  | fuel + 1, level, ids, levels => do
    let next ← c.feedersOf ids
    c.sweep fuel (level + 1) next (ids.foldl (fun r id => Record.put r id level) levels)

/-- The levels of the gates that the output depends on. -/
def levels (c : Circuit) : Outcome (List (String × Nat)) :=
  c.sweep (c.gates.length + 1) 0 c.output.gate?.toList []

end Sentential.Circuit
