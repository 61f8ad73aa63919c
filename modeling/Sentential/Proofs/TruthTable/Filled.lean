import Sentential.Proofs.Steps.Build
import Sentential.Proofs.TruthTable.Results
import Sentential.TruthTable.Verdict

/-!
# Filled tables

Over declared names nothing can fail when a table is filled, and since the labels differ from each
other and from the expression, no cell of a row replaces another. The table is therefore known
outright (`ofFormula_eq_ok`): a row has one cell for each step and then the cell of the
expression.
-/

namespace Sentential

/-- The cells of the steps under a valuation. -/
def Steps.cells (steps : List Step) (v : String → Bool) : List (String × Bool) :=
  steps.map fun step => (step.label, step.formula.holds v)

theorem Steps.fst_cells (steps : List Step) (v : String → Bool) :
    (cells steps v).map Prod.fst = steps.map (·.label) := by
  rw [cells, List.map_map]
  rfl

/-- Steps with labels of their own are evaluated one after the other, behind the cells that are there. -/
theorem Steps.foldlM_put_eq_ok {steps : List Step} {a : Assignment} {values : List (String × Bool)}
    (hnodup : (values.map Prod.fst ++ steps.map (·.label)).Nodup)
    (hbinds : ∀ step ∈ steps, a.Binds step.formula) :
    steps.foldlM (fun values step => do return Record.put values step.label (← step.formula.evaluate a))
      values = .ok (values ++ cells steps a.valuation) := by
  induction steps generalizing values with
  | nil => exact congrArg Except.ok (List.append_nil values).symm
  | cons step steps ih =>
    have hvalue := Formula.evaluate_eq_holds a.extends_valuation (hbinds step List.mem_cons_self)
    have hnew : step.label ∉ values.map Prod.fst := by
      intro hmem
      exact (List.nodup_append.1 hnodup).2.2 _ hmem _ List.mem_cons_self rfl
    have hput := Record.put_of_not_mem (step.formula.holds a.valuation) hnew
    rw [List.foldlM_cons, hvalue]
    show steps.foldlM _ (Record.put values step.label (step.formula.holds a.valuation)) = _
    rw [hput, ih ?_ fun s hs => hbinds s (List.mem_cons_of_mem _ hs), List.append_assoc]
    · rfl
    · rw [List.map_append, List.append_assoc]
      exact hnodup

namespace TruthTable

variable {formula : Formula} {expression : String} {names : List String} {steps : List Steps.Step}

/-- The row of an assignment with its index. -/
def filledRow (formula : Formula) (expression : String) (steps : List Steps.Step)
    (entry : Assignment × Nat) : Row :=
  ⟨entry.2, entry.1,
    Steps.cells steps entry.1.valuation ++ [(expression, formula.holds entry.1.valuation)],
    formula.holds entry.1.valuation⟩

/-- A row over declared names is filled, with a cell for each step and one for the expression. -/
theorem rowOf_eq_ok (hsteps : Steps.Fit expression names steps) (hf : ∀ name ∈ formula.atoms, name ∈ names)
    {a : Assignment} (ha : a ∈ Variables.assignments names) (index : Nat) :
    rowOf formula expression steps index a = .ok (filledRow formula expression steps (a, index)) := by
  have hcells : Steps.evaluate steps a = .ok (Steps.cells steps a.valuation) :=
    Steps.foldlM_put_eq_ok hsteps.nodup fun step hs => binds_of_mem_assignments (hsteps.declared step hs) ha
  have hresult := Formula.evaluate_eq_holds a.extends_valuation (binds_of_mem_assignments hf ha)
  refine rowOf_eq_ok_iff.2 ⟨_, _, hcells, hresult, ?_⟩
  rw [Record.put_of_not_mem _ (Steps.fst_cells steps a.valuation ▸ hsteps.not_mem)]
  rfl

/-- The table of a formula over declared names. -/
def filled (formula : Formula) (expression : String) (names : List String) (steps : List Steps.Step) :
    TruthTable :=
  ⟨names, expression, steps.map (·.label),
    (Variables.assignments names).zipIdx.map (filledRow formula expression steps)⟩

/-- Filling a table over declared names cannot fail. -/
theorem ofFormula_eq_ok (hsteps : Steps.Fit expression names steps)
    (hf : ∀ name ∈ formula.atoms, name ∈ names) :
    ofFormula formula expression names steps = .ok (filled formula expression names steps) := by
  refine ofFormula_eq_ok_iff.2 ⟨_, ?_, rfl⟩
  refine Outcome.mapM_eq_ok_map fun entry hentry => ?_
  exact rowOf_eq_ok hsteps hf (List.fst_mem_of_mem_zipIdx hentry) entry.2

/-- The results do not depend on the steps. -/
theorem results_filled : (filled formula expression names steps).results =
    (Variables.assignments names).map fun a => formula.holds a.valuation := by
  have hzip : (filled formula expression names steps).results =
      (Variables.assignments names).zipIdx.map ((fun a => formula.holds a.valuation) ∘ Prod.fst) := by
    rw [results, filled, List.map_map]
    rfl
  rw [hzip, ← List.map_map, List.zipIdx_map_fst]

/-- The rows of a filled table are the assignments of the names. -/
theorem assignments_filled : (filled formula expression names steps).rows.map (·.assignment) =
    Variables.assignments names := by
  have hzip : (filled formula expression names steps).rows.map (·.assignment) =
      (Variables.assignments names).zipIdx.map Prod.fst := by
    rw [filled, List.map_map]
    rfl
  rw [hzip, List.zipIdx_map_fst]

theorem result_of_mem_filled {row : Row} (h : row ∈ (filled formula expression names steps).rows) :
    row.result = formula.holds row.assignment.valuation := by
  obtain ⟨entry, _, rfl⟩ := List.mem_map.1 h
  rfl

/-- A filled table has a verdict: there is at least one row. -/
theorem exists_verdict (formula : Formula) (expression : String) (names : List String)
    (steps : List Steps.Step) :
    ∃ verdict, Verdict.ofColumn (filled formula expression names steps).results = .ok verdict := by
  have hne : (filled formula expression names steps).results ≠ [] := by
    rw [results_filled, Variables.assignments]
    simp
  unfold Verdict.ofColumn
  rw [if_neg (by simpa using hne)]
  split
  next => exact ⟨_, rfl⟩
  next => split <;> exact ⟨_, rfl⟩

end TruthTable

end Sentential
