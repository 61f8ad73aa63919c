import Sentential.Circuit.Value
import Sentential.Proofs.Circuit.Build
import Sentential.Proofs.Circuit.Numbering
import Sentential.Proofs.Formula.Valuation

/-!
# What a circuit computes

The value of a tree of gates needs no names (`GateTree.value?`). A circuit that contains the gates
of the tree under their names, and no other gates under these, gives the tree's value at the signal
of its root (`valueOf_output_ofTree`). The tree of a formula has the value of the formula with
its conditionals read as disjunctions (`Formula.value?_gateTree`), and so has the circuit
(`Formula.circuit_value_eq_evaluate`).
-/

namespace Sentential

/-- The value of a tree, if all its variables have one. -/
def GateTree.value? (a : Assignment) : GateTree → Option Bool
  | input name => a.lookup name
  | not t => do
    let b ← t.value? a
    GateType.value? .not [b]
  | pair type l r => do
    let x ← l.value? a
    let y ← r.value? a
    type.value? [x, y]

namespace Circuit

variable {c : Circuit} {a : Assignment} {fuel : Nat}

/-- The signal of a gate has the value that the gate's kind gives to its inputs. -/
theorem valueOf_gate (hnodup : (c.gates.map (·.id)).Nodup) {g : Gate} (hg : g ∈ c.gates) :
    c.valueOf a (fuel + 1) (.gate g.id) =
      (g.inputs.mapM (c.valueOf a fuel)).bind g.type.value? := by
  rw [valueOf, find?_id hnodup hg]
  rfl

/-- Gates elsewhere in the circuit do not change the value of a part, because the part's names
find the part's gates. The number of gates on a path through the tree is at most its size. -/
theorem valueOf_output_ofTree (hnodup : (c.gates.map (·.id)).Nodup) {n : Nat} {t : GateTree}
    (hpart : ∀ g ∈ (Part.ofTree n t).gates, g ∈ c.gates) (hfuel : t.size ≤ fuel) :
    c.valueOf a fuel (Part.ofTree n t).output = t.value? a := by
  induction t generalizing n fuel with
  | input name => rw [Part.ofTree, valueOf, GateTree.value?]
  | not t ih =>
    rw [GateTree.size] at hfuel
    obtain ⟨fuel, rfl⟩ : ∃ k, fuel = k + 1 := Nat.exists_eq_add_of_le' (by omega)
    have ht : c.valueOf a fuel (Part.ofTree (n + 1) t).output = t.value? a :=
      ih (fun g hg => hpart g (List.mem_cons_of_mem _ hg)) (by omega)
    refine (valueOf_gate hnodup (hpart _ List.mem_cons_self)).trans ?_
    simp only [List.mapM_cons, List.mapM_nil, ht, GateTree.value?]
    cases t.value? a <;> rfl
  | pair type l r ihl ihr =>
    rw [GateTree.size] at hfuel
    obtain ⟨fuel, rfl⟩ : ∃ k, fuel = k + 1 := Nat.exists_eq_add_of_le' (by omega)
    have hl : c.valueOf a fuel (Part.ofTree (n + 1) l).output = l.value? a :=
      ihl (fun g hg => hpart g (List.mem_cons_of_mem _ (List.mem_append_left _ hg))) (by omega)
    have hr : c.valueOf a fuel (Part.ofTree (n + 1 + l.size) r).output = r.value? a :=
      ihr (fun g hg => hpart g (List.mem_cons_of_mem _ (List.mem_append_right _ hg))) (by omega)
    refine (valueOf_gate hnodup (hpart _ List.mem_cons_self)).trans ?_
    simp only [List.mapM_cons, List.mapM_nil, hl, hr, GateTree.value?]
    cases l.value? a <;> cases r.value? a <;> rfl

/-- The circuit of a tree has the value of the tree. -/
theorem value_ofTree (t : GateTree) : (ofTree t).value a = t.value? a := by
  have hsize : t.size ≤ (ofTree t).gates.length := by
    simp [ofTree]
  exact valueOf_output_ofTree (Part.nodup_ids_ofTree 1 t) (fun g hg => hg) hsize

end Circuit

namespace Formula

variable {a : Assignment} {v : String → Bool} {op : Connective} {f l r : Formula}

/-- The gate of a connective computes it, the conditional read as a disjunction. -/
theorem value?_gate :
    op.gate.value? [l.conditionalsAsOr.holds v, r.conditionalsAsOr.holds v] =
      some ((binary op l r).conditionalsAsOr.holds v) := by
  cases op <;> rfl

/-- A gate with a negated output computes the negation; the conditional has no such gate. -/
theorem value?_negatedGate {type : GateType} (h : op.negatedGate? = some type) :
    type.value? [l.conditionalsAsOr.holds v, r.conditionalsAsOr.holds v] =
      some ((not (binary op l r)).conditionalsAsOr.holds v) := by
  cases op with
  | and => cases h; rfl
  | or => cases h; rfl
  | xor =>
    cases h
    show some (_ == _) = some (!(_ != _))
    rw [bne, Bool.not_not]
  | implies => cases h
  | iff => cases h

/-- The tree of a formula has the value of the formula with its conditionals as disjunctions. -/
theorem value?_gateTree (hv : Assignment.Extends v a) (hb : a.Binds f) :
    f.gateTree.value? a = some (f.conditionalsAsOr.holds v) := by
  fun_induction gateTree f with
  | case1 name => exact hb.lookup_var hv
  | case2 op l r ihl ihr =>
    obtain ⟨hl, hr⟩ := Assignment.Binds.binary_iff.1 (Assignment.Binds.not_iff.1 hb)
    unfold GateTree.negated
    split
    next type htype => simp [GateTree.value?, ihl hl, ihr hr, value?_negatedGate htype]
    next =>
      simp only [GateTree.value?, ihl hl, ihr hr, Option.bind_eq_bind, Option.bind_some, value?_gate]
      rfl
  | case3 f ih =>
    rw [GateTree.value?, ih (Assignment.Binds.not_iff.1 hb)]
    rfl
  | case4 name =>
    rw [GateTree.value?, GateTree.value?, (Assignment.Binds.not_iff.1 hb).lookup_var hv]
    rfl
  | case5 op l r ihl ihr =>
    obtain ⟨hl, hr⟩ := Assignment.Binds.binary_iff.1 hb
    simp only [GateTree.value?, ihl hl, ihr hr, Option.bind_eq_bind, Option.bind_some, value?_gate]

/-- Reading conditionals as disjunctions keeps the variables. -/
theorem leaves_conditionalsAsOr (f : Formula) : f.conditionalsAsOr.leaves = f.leaves := by
  induction f with
  | var name => rfl
  | not f ih => simpa [conditionalsAsOr, leaves] using ih
  | binary op l r ihl ihr => cases op <;> simp [conditionalsAsOr, leaves, ihl, ihr]

/-- A formula without conditionals is not changed. -/
theorem conditionalsAsOr_eq_self (h : ∀ l r, ¬Subformula (binary .implies l r) f) :
    f.conditionalsAsOr = f := by
  induction f with
  | var name => rfl
  | not f ih => rw [conditionalsAsOr, ih fun l r hs => h l r (.not hs)]
  | binary op l r ihl ihr =>
    have hl := ihl fun l' r' hs => h l' r' (.left hs)
    have hr := ihr fun l' r' hs => h l' r' (.right hs)
    cases op with
    | implies => exact absurd .refl (h l r)
    | _ => simp only [conditionalsAsOr, hl, hr]

/-- Under an assignment that binds the variables of a formula, the output of its circuit has the
value that evaluation gives to the formula with every conditional replaced by a disjunction. Without
conditionals this is the value of the formula itself. -/
theorem circuit_value_eq_evaluate (hb : a.Binds f) :
    ∃ b, f.circuit.value a = some b ∧ f.conditionalsAsOr.evaluate a = .ok b ∧
      ((∀ l r, ¬Subformula (binary .implies l r) f) → f.evaluate a = .ok b) := by
  have hv := a.extends_valuation
  have hb' : a.Binds f.conditionalsAsOr := by
    intro name hn
    rw [mem_atoms, leaves_conditionalsAsOr, ← mem_atoms] at hn
    exact hb name hn
  refine ⟨f.conditionalsAsOr.holds a.valuation, ?_, evaluate_eq_holds hv hb', fun hfree => ?_⟩
  · rw [circuit_eq_ofTree, Circuit.value_ofTree, value?_gateTree hv hb]
  · rw [conditionalsAsOr_eq_self hfree, evaluate_eq_holds hv hb]

/-- The circuit of `¬(p △ ¬(q ↔ ¬r))`, which has no conditional, under one assignment. -/
theorem circuit_value_eq_evaluate_nested :
    let f : Formula := .not (.binary .xor (.var "p") (.not (.binary .iff (.var "q") (.not (.var "r")))))
    let a : Assignment := [("p", true), ("q", false), ("r", true)]
    a.Binds f ∧ ∃ b, f.circuit.value a = some b ∧ f.evaluate a = .ok b := by
  intro f a
  have hb : a.Binds f := by
    simp only [Assignment.Binds, mem_atoms]
    decide
  obtain ⟨b, hcircuit, -, hevaluate⟩ := circuit_value_eq_evaluate hb
  refine ⟨hb, b, hcircuit, hevaluate ?_⟩
  simp [f]

end Formula

end Sentential
