import Sentential.Proofs.Cli.Agreement
import Sentential.Proofs.Request.Layout
import Sentential.Report.Encode

/-!
# Results in the report of a request

The report of an answered request shows the result of each row twice: as the result, and among the values of the
row under the expression. The key of the latter is the expression without the blanks around it, whereas the
report shows the expression as it was given. So the expression that the report shows is the key of the value
if it has no blanks at its ends, and otherwise it is no key at all (`Request.report_keeps_results`).
-/

namespace Sentential

namespace Report

/-- The field of a record with the given name. -/
def field? (name : String) : Report → Option Report
  | record fields => fields.lookup name
  | _ => none

/-- A value among the report of named truth values is reported under its name. -/
theorem field?_ofValues (values : List (String × Bool)) (name : String) :
    (ofValues values).field? name = (values.lookup name).map bool := by
  rw [ofValues, field?]
  induction values with
  | nil => rfl
  | cons entry values ih =>
    rw [List.map_cons, List.lookup_cons, List.lookup_cons]
    cases name == entry.1 with
    | true => rfl
    | false => exact ih

end Report

namespace TruthTable.Row

variable (row : Row)

theorem field?_values : row.report.field? "values" = some (.ofValues row.values) := rfl

theorem field?_result : row.report.field? "result" = some (.bool row.result) := rfl

end TruthTable.Row

namespace Evaluation.Stages

variable {r : Request} {settings : Settings} {e : Evaluation}

/-- The row's value of the expression is its result. -/
theorem lookup_expression (h : e.Stages r settings) {row : TruthTable.Row} (hrow : row ∈ e.table.rows) :
    row.values.lookup (Text.trimmed r.expression) = some row.result := by
  obtain ⟨steps, hfit, htable⟩ := h.exists_filled
  rw [htable] at hrow
  obtain ⟨entry, _, rfl⟩ := List.mem_map.1 hrow
  exact TruthTable.lookup_filledRow hfit entry

/-- A text with blanks at its ends is no key of a row. -/
theorem lookup_eq_none (h : e.Stages r settings) {row : TruthTable.Row} (hrow : row ∈ e.table.rows) {key : String}
    (hkey : Text.trimmed key ≠ key) : row.values.lookup key = none := by
  obtain ⟨steps, _, htable⟩ := h.exists_filled
  have hkeys : row.values.map Prod.fst = e.table.steps ++ [Text.trimmed r.expression] := by
    rw [htable] at hrow ⊢
    exact TruthTable.keys_of_mem_filled hrow
  -- A key that is found is a label or the expression, and these are trimmed.
  refine Option.eq_none_iff_forall_ne_some.2 fun b hb => hkey ?_
  have hmem : key ∈ e.table.steps ++ [Text.trimmed r.expression] := hkeys ▸ Record.mem_keys_iff.2 ⟨b, hb⟩
  rcases List.mem_append.1 hmem with hstep | hlast
  · exact (Steps.trimmed_of_isCandidate h.isWord_of_mem (h.isCandidate_of_mem hstep)).2
  · rw [List.mem_singleton.1 hlast, Text.trimmed_trimmed]

/-- The report of an answer shows the expression as it was given, and the reports of the rows. -/
theorem exists_report_fields (h : e.Stages r settings) : ∃ d, e.report = .ok d ∧
    d.field? "expression" = some (.text r.expression) ∧
      d.field? "rows" = some (.list (e.table.rows.map TruthTable.Row.report)) := by
  obtain ⟨circuit, hcircuit⟩ := h.exists_circuit_report
  refine ⟨_, Outcome.bind_eq_ok_iff.2 ⟨circuit, hcircuit, rfl⟩, ?_, rfl⟩
  rw [← h.request_eq]
  rfl

end Evaluation.Stages

namespace Request

/-- The report of an answered request has a row for each assignment of the names, and each row shows its result,
also among its values under the expression without the blanks around it. If the expression was given with such
blanks, then as the report shows it, it is no key of the values. -/
theorem report_keeps_results {r : Request} {settings : Settings} {e : Evaluation} (h : r.evaluate settings = .ok e) :
    ∃ d rows, e.report = .ok d ∧ d.field? "expression" = some (.text r.expression) ∧
      d.field? "rows" = some (.list rows) ∧ rows.length = 2 ^ r.names.length ∧
      ∀ row ∈ rows, ∃ values result, row.field? "values" = some values ∧ row.field? "result" = some (.bool result) ∧
        values.field? (Text.trimmed r.expression) = some (.bool result) ∧
        (Text.trimmed r.expression ≠ r.expression → values.field? r.expression = none) := by
  have hstages := evaluate_eq_ok_iff.1 h
  obtain ⟨_, _, hlength⟩ := hstages.table_eq
  obtain ⟨d, hd, hexpression, hrows⟩ := hstages.exists_report_fields
  refine ⟨d, _, hd, hexpression, hrows, by rw [List.length_map, hlength], fun report hreport => ?_⟩
  obtain ⟨row, hrow, rfl⟩ := List.mem_map.1 hreport
  refine ⟨.ofValues row.values, row.result, row.field?_values, row.field?_result, ?_, fun hblanks => ?_⟩
  · rw [Report.field?_ofValues, hstages.lookup_expression hrow]
    rfl
  · rw [Report.field?_ofValues, hstages.lookup_eq_none hrow hblanks]
    rfl

/-- In the report of ` p ∨ q` the value of a row is found under `p ∨ q` and not under the expression as given. -/
theorem report_keeps_results_blanks :
    let r : Request := ⟨" p ∨ q", ["p", "q"], none⟩
    ∃ e d rows, r.evaluate { } = .ok e ∧ e.report = .ok d ∧ d.field? "expression" = some (.text " p ∨ q") ∧
      d.field? "rows" = some (.list rows) ∧ rows.length = 4 ∧
        ∀ row ∈ rows, ∃ values result, row.field? "values" = some values ∧ row.field? "result" = some (.bool result) ∧
          values.field? "p ∨ q" = some (.bool result) ∧ values.field? " p ∨ q" = none := by
  intro r
  obtain ⟨e, he⟩ : ∃ e, r.evaluate { } = .ok e := Outcome.exists_eq_ok_of_isSome (by decide +kernel)
  have htrimmed : Text.trimmed " p ∨ q" = "p ∨ q" := by decide +kernel
  obtain ⟨d, rows, hd, hexpression, hrows, hlength, hvalues⟩ := report_keeps_results he
  refine ⟨e, d, rows, he, hd, hexpression, hrows, hlength, fun row hrow => ?_⟩
  obtain ⟨values, result, hv, hr, hfound, hnone⟩ := hvalues row hrow
  rw [htrimmed] at hfound hnone
  exact ⟨values, result, hv, hr, hfound, hnone (by decide)⟩

/-- Not every report has the value of a row under the expression that it shows. -/
theorem report_not_always_keyed :
    ¬ ∀ (r : Request) (settings : Settings) (e : Evaluation) (d : Report) (expression : String) (rows : List Report),
      r.evaluate settings = .ok e → e.report = .ok d → d.field? "expression" = some (.text expression) →
        d.field? "rows" = some (.list rows) →
          ∀ row ∈ rows, ∃ values result, row.field? "values" = some values ∧
            values.field? expression = some result ∧ row.field? "result" = some result := by
  intro h
  obtain ⟨e, he⟩ : ∃ e, (⟨" p", ["p"], none⟩ : Request).evaluate { } = .ok e :=
    Outcome.exists_eq_ok_of_isSome (by decide +kernel)
  have hstages := evaluate_eq_ok_iff.1 he
  obtain ⟨_, _, hlength⟩ := hstages.table_eq
  obtain ⟨row, hrow⟩ := List.exists_mem_of_length_pos (hlength ▸ Nat.two_pow_pos _)
  obtain ⟨d, hd, hexpression, hrows⟩ := hstages.exists_report_fields
  obtain ⟨values, result, hv, hfound, _⟩ := h _ _ e d _ _ he hd hexpression hrows _ (List.mem_map_of_mem hrow)
  cases hv
  rw [Report.field?_ofValues, hstages.lookup_eq_none hrow (by decide +kernel)] at hfound
  cases hfound

end Request

end Sentential
