import Sentential.Proofs.Formula.Valuation
import Sentential.Proofs.Outcome
import Sentential.Proofs.Variables.Rows
import Sentential.TruthTable.Basic

/-!
# Results of a truth table

The rows of a table are the assignments of the names, and the formula is evaluated in each. As the
rows cover every valuation of the names, the results that occur are exactly the values that the
formula takes under any valuation (`mem_results_iff`).
-/

namespace Sentential

namespace TruthTable

variable {formula : Formula} {expression : String} {names : List String}
  {steps : List Steps.Step} {index : Nat} {a : Assignment}

/-- A row is filled exactly if its steps and the formula have values. -/
theorem rowOf_eq_ok_iff {row : Row} : rowOf formula expression steps index a = .ok row ↔
    ∃ values result, Steps.evaluate steps a = .ok values ∧ formula.evaluate a = .ok result ∧
      row = ⟨index, a, Record.put values expression result, result⟩ := by
  unfold rowOf
  simp only [Outcome.bind_eq_ok_iff]
  constructor
  · rintro ⟨values, hv, result, hr, h⟩
    cases h
    exact ⟨values, result, hv, hr, rfl⟩
  · rintro ⟨values, result, hv, hr, rfl⟩
    exact ⟨values, hv, result, hr, rfl⟩

/-- A table is filled exactly if all its rows are. -/
theorem ofFormula_eq_ok_iff {t : TruthTable} : ofFormula formula expression names steps = .ok t ↔
    ∃ rows, ((Variables.assignments names).zipIdx.mapM fun (a, index) =>
      rowOf formula expression steps index a) = .ok rows ∧
        t = ⟨names, expression, steps.map (·.label), rows⟩ := by
  unfold ofFormula
  rw [Outcome.bind_eq_ok_iff]
  exact exists_congr fun rows => and_congr_right fun _ =>
    ⟨fun h => (Except.ok.inj h).symm, fun h => h ▸ rfl⟩

/-- The assignments of the names bind the variables of a formula over the names. -/
theorem binds_of_mem_assignments (hf : ∀ name ∈ formula.atoms, name ∈ names)
    (ha : a ∈ Variables.assignments names) : a.Binds formula := by
  obtain ⟨index, _, rfl⟩ := Variables.mem_assignments.1 ha
  exact fun name hn => Variables.lookup_row_isSome (hf name hn)

/-- The results of a table are the values of its formula under all valuations. -/
theorem mem_results_iff {t : TruthTable} (ht : ofFormula formula expression names steps = .ok t)
    (hf : ∀ name ∈ formula.atoms, name ∈ names) {b : Bool} :
    b ∈ t.results ↔ ∃ v, formula.holds v = b := by
  obtain ⟨rows, hrows, rfl⟩ := ofFormula_eq_ok_iff.1 ht
  constructor
  · intro h
    obtain ⟨row, hrow, rfl⟩ := List.mem_map.1 h
    obtain ⟨⟨a, index⟩, ha, hrow⟩ := Outcome.exists_of_mem_mapM hrows hrow
    obtain ⟨values, result, _, hr, rfl⟩ := rowOf_eq_ok_iff.1 hrow
    have hbinds := binds_of_mem_assignments hf (List.fst_mem_of_mem_zipIdx ha)
    rw [Formula.evaluate_eq_holds a.extends_valuation hbinds] at hr
    exact ⟨a.valuation, Except.ok.inj hr⟩
  · rintro ⟨v, rfl⟩
    obtain ⟨index, hindex, hv⟩ := Variables.exists_row names v
    have ha := Variables.mem_assignments.2 ⟨index, hindex, rfl⟩
    obtain ⟨k, hk, hget⟩ := List.getElem_of_mem ha
    have hmem := List.mk_mem_zipIdx_iff_getElem?.2 (List.getElem?_eq_some_iff.2 ⟨hk, hget⟩)
    obtain ⟨row, hrow, heq⟩ := Outcome.exists_mem_of_mapM hrows hmem
    obtain ⟨values, result, _, hr, rfl⟩ := rowOf_eq_ok_iff.1 heq
    refine List.mem_map.2 ⟨_, hrow, ?_⟩
    have hbinds := binds_of_mem_assignments hf ha
    rw [Formula.evaluate_eq_holds (Assignment.extends_valuation _) hbinds] at hr
    rw [← Except.ok.inj hr]
    refine Formula.holds_congr fun name hn => ?_
    simp [Assignment.valuation, hv name (hf name hn)]

end TruthTable

end Sentential
