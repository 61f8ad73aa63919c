import Sentential.Proofs.Circuit.Build
import Sentential.Proofs.Circuit.Parts

/-!
# Circuits and their trees

A circuit of a tree shows the tree: the inputs of its gates say how they hang together, and each gate is listed
before those that feed it. So the output and the list of gates determine the tree (`Part.tree_unique`), and with it
the connections and the counts (`ofTree_eq_of_gates`). The signals in it come from numbered gates and from the
variables (`Part.over_of_mem_signals`).
-/

namespace Sentential

/-- The variables of a tree from left to right, with repetitions. -/
def GateTree.names : GateTree → List String
  | input name => [name]
  | not a => a.names
  | pair _ l r => l.names ++ r.names

/-- The gates of a formula keep its variables. -/
theorem Formula.names_gateTree (f : Formula) : f.gateTree.names = f.leaves := by
  fun_induction gateTree f with
  | case1 name => rfl
  | case2 op l r ihl ihr =>
    rw [leaves, leaves, ← ihl, ← ihr]
    cases op <;> rfl
  | case3 a ih => exact ih
  | case4 name => rfl
  | case5 op l r ihl ihr => rw [GateTree.names, leaves, ihl, ihr]

namespace Circuit

variable {t t' : GateTree} {n : Nat} {ref : Ref}

/-- The signals in a circuit: its output and the inputs of its gates. -/
def signals (c : Circuit) : List Ref := c.output :: c.gates.flatMap (·.inputs)

/-- The signal comes from a numbered gate, or from a variable whose name has the property. -/
def Ref.Over (p : String → Prop) : Ref → Prop
  | gate id => ∃ m, id = gateName m
  | input name => p name

theorem Ref.Over.mono {p q : String → Prop} (h : ref.Over p) (hpq : ∀ name, p name → q name) : ref.Over q := by
  cases ref with
  | gate id => exact h
  | input name => exact hpq name h

/-- The signals in a part come from numbered gates and from the variables of the tree. -/
theorem Part.over_of_mem_signals (h : ref ∈ (ofTree n t).output :: (ofTree n t).gates.flatMap (·.inputs)) :
    ref.Over (· ∈ t.names) := by
  induction t generalizing n with
  | input name =>
    obtain rfl := List.mem_singleton.1 h
    exact List.mem_singleton_self name
  | not a ih =>
    rcases List.mem_cons.1 h with rfl | h
    · exact ⟨n, rfl⟩
    · exact ih h
  | pair type l r ihl ihr =>
    have hleft : ∀ name ∈ l.names, name ∈ (GateTree.pair type l r).names := fun name => List.mem_append_left _
    have hright : ∀ name ∈ r.names, name ∈ (GateTree.pair type l r).names := fun name => List.mem_append_right _
    simp only [ofTree, List.flatMap_cons, List.flatMap_append, List.cons_append, List.nil_append, List.mem_cons,
      List.mem_append] at h
    rcases h with rfl | h | h | h | h
    · exact ⟨n, rfl⟩
    · exact (ihl (List.mem_cons.2 (.inl h))).mono hleft
    · exact (ihr (List.mem_cons.2 (.inl h))).mono hright
    · exact (ihl (List.mem_cons.2 (.inr h))).mono hleft
    · exact (ihr (List.mem_cons.2 (.inr h))).mono hright

/-- The output of a part and its gates, whatever is listed behind them, show the tree and where its gates end. -/
theorem Part.tree_unique {rest rest' : List Gate} (houtput : (ofTree n t).output = (ofTree n t').output)
    (hgates : (ofTree n t).gates ++ rest = (ofTree n t').gates ++ rest') : t = t' ∧ rest = rest' := by
  induction t generalizing n t' rest rest' with
  | input name =>
    cases t' with
    | input name' =>
      cases houtput
      exact ⟨rfl, hgates⟩
    | not a => cases houtput
    | pair type l r => cases houtput
  | not a ih =>
    cases t' with
    | input name => cases houtput
    | not a' =>
      simp only [ofTree, List.cons_append, List.cons.injEq, Gate.mk.injEq, true_and, and_true] at hgates
      obtain ⟨hinput, hrest⟩ := hgates
      obtain ⟨rfl, hend⟩ := ih hinput hrest
      exact ⟨rfl, hend⟩
    | pair type l r => simp [ofTree] at hgates
  | pair type l r ihl ihr =>
    cases t' with
    | input name => cases houtput
    | not a => simp [ofTree] at hgates
    | pair type' l' r' =>
      simp only [ofTree, List.cons_append, List.append_assoc, List.cons.injEq, Gate.mk.injEq, true_and,
        and_true] at hgates
      obtain ⟨⟨rfl, hl, hr⟩, hrest⟩ := hgates
      -- The left tree says where the gates of the right one begin, and with which number.
      obtain ⟨rfl, hmiddle⟩ := ihl hl hrest
      obtain ⟨rfl, hend⟩ := ihr hr hmiddle
      exact ⟨rfl, hend⟩

/-- The circuit of a tree is determined by its output and its gates. -/
theorem ofTree_eq_of_gates (houtput : (ofTree t).output = (ofTree t').output)
    (hgates : (ofTree t).gates = (ofTree t').gates) : ofTree t = ofTree t' := by
  have hrest : (Part.ofTree 1 t).gates ++ [] = (Part.ofTree 1 t').gates ++ [] := by
    rw [List.append_nil, List.append_nil]
    exact hgates
  obtain ⟨rfl, _⟩ := Part.tree_unique houtput hrest
  rfl

end Circuit

end Sentential
