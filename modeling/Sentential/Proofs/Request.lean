import Sentential.Proofs.Parsed
import Sentential.Proofs.Variables.Validation
import Sentential.Request

/-!
# Stages of a request

A request is answered exactly if every stage succeeds (`Request.evaluate_eq_ok_iff`). The names are
those of the request, and the expression is read without the blanks around it.
-/

namespace Sentential

/-- What every stage of a request has produced. -/
structure Evaluation.Stages (r : Request) (settings : Settings) (e : Evaluation) : Prop where
  notBlank : Text.isBlankText r.expression = false
  valid : Variables.validate r.names settings.maxVariables = .ok r.names
  parsed : parse (Text.trimmed r.expression) r.names = .ok e.parsed
  table : ∃ steps, r.steps settings (Text.trimmed r.expression) r.names = .ok steps ∧
    TruthTable.ofFormula e.parsed.formula (Text.trimmed r.expression) r.names steps = .ok e.table
  verdict : Verdict.ofColumn e.table.results = .ok e.verdict
  request_eq : e.request = r
  simplified_eq : e.simplified = e.parsed.formula.unconditional
  circuit_eq : e.circuit = e.parsed.formula.circuit
  showSteps_eq : e.showSteps = r.showsSteps settings

/-- The stages of a request one after the other. -/
theorem Request.evaluate_eq (r : Request) (settings : Settings) :
    r.evaluate settings = if Text.isBlankText r.expression then .error (.fault .emptyExpression) else do
      let names ← Variables.validate r.names settings.maxVariables
      let parsed ← parse (Text.trimmed r.expression) names
      let steps ← r.steps settings (Text.trimmed r.expression) names
      let table ← TruthTable.ofFormula parsed.formula (Text.trimmed r.expression) names steps
      let verdict ← Verdict.ofColumn table.results
      return ⟨r, parsed, table, verdict, parsed.formula.unconditional, parsed.formula.circuit,
        r.showsSteps settings⟩ := by
  unfold evaluate
  split <;> rfl

/-- A request is answered exactly if every stage succeeds. -/
theorem Request.evaluate_eq_ok_iff {r : Request} {settings : Settings} {e : Evaluation} :
    r.evaluate settings = .ok e ↔ e.Stages r settings := by
  rw [evaluate_eq]
  constructor
  · intro h
    split at h
    next => cases h
    next hblank =>
      obtain ⟨names, hvalid, h⟩ := Outcome.bind_eq_ok_iff.1 h
      obtain rfl := (Variables.validate_eq_ok_iff.1 hvalid).1
      obtain ⟨parsed, hparsed, h⟩ := Outcome.bind_eq_ok_iff.1 h
      obtain ⟨steps, hsteps, h⟩ := Outcome.bind_eq_ok_iff.1 h
      obtain ⟨table, htable, h⟩ := Outcome.bind_eq_ok_iff.1 h
      obtain ⟨verdict, hverdict, h⟩ := Outcome.bind_eq_ok_iff.1 h
      cases h
      exact ⟨by simpa using hblank, hvalid, hparsed, ⟨steps, hsteps, htable⟩, hverdict, rfl, rfl, rfl, rfl⟩
  · rintro ⟨hblank, hvalid, hparsed, ⟨steps, hsteps, htable⟩, hverdict, hr, hs, hc, hb⟩
    rw [if_neg (by simp [hblank])]
    refine Outcome.bind_eq_ok_iff.2 ⟨_, hvalid, Outcome.bind_eq_ok_iff.2 ⟨_, hparsed, ?_⟩⟩
    refine Outcome.bind_eq_ok_iff.2 ⟨_, hsteps, Outcome.bind_eq_ok_iff.2 ⟨_, htable, ?_⟩⟩
    refine Outcome.bind_eq_ok_iff.2 ⟨_, hverdict, ?_⟩
    rw [← hb, ← hs, ← hc]
    cases e
    cases hr
    rfl

end Sentential
