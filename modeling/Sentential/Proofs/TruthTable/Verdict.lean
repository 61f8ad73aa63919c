import Sentential.Proofs.Request
import Sentential.Proofs.TruthTable.Results

/-!
# What a verdict means

A verdict is taken from the finite column of results, but it speaks of all valuations: a tautology
holds under every one, a contradiction under none, and a contingency under some but not all
(`verdict_iff_valuations`).
-/

namespace Sentential

/-- The verdict on a column says which results occur in it. -/
theorem Verdict.ofColumn_eq_ok {column : List Bool} {verdict : Verdict}
    (h : ofColumn column = .ok verdict) :
    (verdict = .tautology ↔ ∀ b ∈ column, b = true) ∧
    (verdict = .contradiction ↔ ∀ b ∈ column, b = false) ∧
    (verdict = .contingency ↔ true ∈ column ∧ false ∈ column) := by
  unfold ofColumn at h
  -- A column with a result cannot be all true and all false.
  have hboth : ¬(column = []) → (∀ b ∈ column, b = true) → ¬∀ b ∈ column, b = false := by
    intro hne htrue hfalse
    obtain ⟨b, hb⟩ := List.exists_mem_of_ne_nil column hne
    exact absurd ((htrue b hb).symm.trans (hfalse b hb)) (by decide)
  split at h
  next => cases h
  next hne =>
    have hne : column ≠ [] := by simpa using hne
    split at h
    next hall =>
      have hall : ∀ b ∈ column, b = true := by simpa using hall
      cases h
      exact ⟨iff_of_true rfl hall, iff_of_false (by decide) (hboth hne hall),
        iff_of_false (by decide) fun hc => absurd (hall false hc.2) (by decide)⟩
    next hall =>
      have hfalse : false ∈ column := by simpa using hall
      split at h
      next hany =>
        have htrue : true ∈ column := by simpa using hany
        cases h
        exact ⟨iff_of_false (by decide) fun hc => absurd (hc false hfalse) (by decide),
          iff_of_false (by decide) fun hc => absurd (hc true htrue) (by decide),
          iff_of_true rfl ⟨htrue, hfalse⟩⟩
      next hany =>
        have hnone : ∀ b ∈ column, b = false := by simpa using hany
        cases h
        exact ⟨iff_of_false (by decide) fun hc => hboth hne hc hnone, iff_of_true rfl hnone,
          iff_of_false (by decide) fun hc => absurd (hnone true hc.1) (by decide)⟩

/-- Columns in which the same results occur have the same verdict. -/
theorem Verdict.ofColumn_congr {column column' : List Bool} (h : ∀ b, b ∈ column ↔ b ∈ column') :
    ofColumn column = ofColumn column' := by
  have hempty : column.isEmpty = column'.isEmpty := by
    rw [Bool.eq_iff_iff]
    simp only [List.isEmpty_iff, List.eq_nil_iff_forall_not_mem, h]
  have hall : column.all id = column'.all id := by
    rw [Bool.eq_iff_iff]
    simp only [List.all_eq_true, h]
  have hany : column.any id = column'.any id := by
    rw [Bool.eq_iff_iff]
    simp only [List.any_eq_true, h]
  rw [ofColumn, ofColumn, hempty, hall, hany]

/-- The results of an answer are the values of its formula under all valuations. -/
theorem Evaluation.Stages.mem_results_iff {r : Request} {settings : Settings} {e : Evaluation}
    (h : e.Stages r settings) {b : Bool} :
    b ∈ e.table.results ↔ ∃ v, e.parsed.formula.holds v = b := by
  obtain ⟨steps, _, htable⟩ := h.table
  have hparsed := parse_eq_ok_iff.1 h.parsed
  exact TruthTable.mem_results_iff htable fun name hn => hparsed.mem_declared hn

/-- The verdict of an answered request describes the formula under all valuations of all names, not
only in the rows of the table. What a valuation gives is what evaluation computes under any
assignment that agrees with it and binds the variables. -/
theorem verdict_iff_valuations {r : Request} {settings : Settings} {e : Evaluation}
    (h : r.evaluate settings = .ok e) :
    (e.verdict = .tautology ↔ ∀ v, e.parsed.formula.holds v = true) ∧
    (e.verdict = .contradiction ↔ ∀ v, e.parsed.formula.holds v = false) ∧
    (e.verdict = .contingency ↔
      (∃ v, e.parsed.formula.holds v = true) ∧ ∃ v, e.parsed.formula.holds v = false) ∧
    ∀ v a, Assignment.Extends v a → a.Binds e.parsed.formula →
      e.parsed.formula.evaluate a = .ok (e.parsed.formula.holds v) := by
  have hstages := Request.evaluate_eq_ok_iff.1 h
  obtain ⟨htaut, hcontra, hconting⟩ := Verdict.ofColumn_eq_ok hstages.verdict
  have hforall : ∀ b, (∀ x ∈ e.table.results, x = b) ↔ ∀ v, e.parsed.formula.holds v = b := by
    intro b
    simp only [hstages.mem_results_iff]
    exact ⟨fun hx v => hx _ ⟨v, rfl⟩, fun hv x ⟨v, hx⟩ => hx ▸ hv v⟩
  refine ⟨htaut.trans (hforall true), hcontra.trans (hforall false), ?_, ?_⟩
  · rw [hconting, hstages.mem_results_iff, hstages.mem_results_iff]
  · exact fun v a hv hb => Formula.evaluate_eq_holds hv hb

/-- The request for `~p -> {q}`, whose verdict is a contingency. -/
theorem verdict_iff_valuations_contingency :
    let r : Request := ⟨" ~p -> {q}", ["p", "q"], none⟩
    ∃ e, r.evaluate { } = .ok e ∧ e.verdict = .contingency ∧
      (∃ v, e.parsed.formula.holds v = true) ∧ ∃ v, e.parsed.formula.holds v = false := by
  intro r
  have h : (r.evaluate { }).toOption.map (·.verdict) = some .contingency := by decide +kernel
  obtain ⟨e, he, hv⟩ := Option.map_eq_some_iff.1 h
  have he := Outcome.toOption_eq_some_iff.1 he
  exact ⟨e, he, hv, (verdict_iff_valuations he).2.2.1.1 hv⟩

end Sentential
