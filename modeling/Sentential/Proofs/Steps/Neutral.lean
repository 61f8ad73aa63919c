import Sentential.Proofs.Request
import Sentential.Proofs.Text.Trim
import Sentential.Proofs.TruthTable.Filled

/-!
# Steps add columns and nothing else

A request that asks for steps has the same outcome as the request without them
(`Request.steps_add_columns`). What can be refused is refused before the steps are built, since a
readable expression has readable steps. Then both tables are filled, and they differ by the cells
of the steps, which stand in front of the cell of the expression and do not hide it.
-/

namespace Sentential

/-- The row is the row of a plain table with cells of its own in front, one for each label; in both
the column of the expression shows the result. -/
structure TruthTable.Row.AddsCells (labels : List String) (expression : String) (row plain : Row) : Prop where
  index_eq : row.index = plain.index
  assignment_eq : row.assignment = plain.assignment
  result_eq : row.result = plain.result
  values : ∃ cells, cells.map Prod.fst = labels ∧ row.values = cells ++ plain.values
  lookup_row : row.values.lookup expression = some row.result
  lookup_plain : plain.values.lookup expression = some plain.result

/-- The answer is a plain answer with the columns of its steps added to the table. -/
structure Evaluation.AddsSteps (e plain : Evaluation) : Prop where
  request_eq : { e.request with showSteps := plain.request.showSteps } = plain.request
  parsed_eq : e.parsed = plain.parsed
  verdict_eq : e.verdict = plain.verdict
  simplified_eq : e.simplified = plain.simplified
  circuit_eq : e.circuit = plain.circuit
  names_eq : e.table.names = plain.table.names
  expression_eq : e.table.expression = plain.table.expression
  plain_steps : plain.table.steps = []
  rows : List.Forall₂ (TruthTable.Row.AddsCells e.table.steps e.table.expression)
    e.table.rows plain.table.rows

namespace TruthTable

variable {formula : Formula} {expression : String} {names : List String} {steps : List Steps.Step}

/-- No step hides the cell of the expression. -/
theorem lookup_filledRow (hsteps : Steps.Fit expression names steps) (entry : Assignment × Nat) :
    (filledRow formula expression steps entry).values.lookup expression =
      some (filledRow formula expression steps entry).result := by
  have hnone : (Steps.cells steps entry.1.valuation).lookup expression = none := by
    rw [List.lookup_eq_none_iff]
    intro cell hcell
    have hmem : cell.1 ∈ steps.map (·.label) :=
      Steps.fst_cells steps entry.1.valuation ▸ List.mem_map_of_mem hcell
    have hne : expression ≠ cell.1 := fun heq => hsteps.not_mem (heq ▸ hmem)
    simpa using hne
  rw [filledRow, List.lookup_append, hnone]
  simp

/-- The rows of a table with steps add cells to those of the table without. -/
theorem addsCells_filledRow (hsteps : Steps.Fit expression names steps) (entry : Assignment × Nat) :
    Row.AddsCells (steps.map (·.label)) expression (filledRow formula expression steps entry)
      (filledRow formula expression [] entry) where
  index_eq := rfl
  assignment_eq := rfl
  result_eq := rfl
  values := ⟨Steps.cells steps entry.1.valuation, Steps.fst_cells _ _, rfl⟩
  lookup_row := lookup_filledRow hsteps entry
  lookup_plain := lookup_filledRow (.nil expression names) entry

end TruthTable

namespace Request

variable {expression : String} {names : List String} {settings : Settings}

/-- A request is refused for its names or its expression, whether it asks for steps or not, or both
are accepted. -/
theorem refused_or_read (expression : String) (names : List String) (settings : Settings) :
    (∃ f : Fault, ∀ showSteps,
        (⟨expression, names, showSteps⟩ : Request).evaluate settings = .error (.fault f)) ∨
      Text.isBlankText expression = false ∧
        Variables.validate names settings.maxVariables = .ok names ∧
          ∃ p, parse (Text.trimmed expression) names = .ok p := by
  cases hblank : Text.isBlankText expression with
  | true => exact .inl ⟨.emptyExpression, fun showSteps => by rw [evaluate_eq, if_pos hblank]⟩
  | false =>
    cases hvalid : Variables.validate names settings.maxVariables with
    | error e =>
      obtain ⟨f, rfl⟩ := Variables.faults_validate _ _ e hvalid
      refine .inl ⟨f, fun showSteps => ?_⟩
      rw [evaluate_eq, if_neg (by simp [hblank])]
      exact Outcome.bind_eq_error_iff.2 (.inl hvalid)
    | ok names' =>
      obtain rfl := (Variables.validate_eq_ok_iff.1 hvalid).1
      cases hparse : parse (Text.trimmed expression) names' with
      | error e =>
        obtain ⟨f, rfl⟩ := faults_parse _ _ e hparse
        refine .inl ⟨f, fun showSteps => ?_⟩
        rw [evaluate_eq, if_neg (by simp [hblank])]
        exact Outcome.bind_eq_error_iff.2 (.inr ⟨names', hvalid, Outcome.bind_eq_error_iff.2 (.inl hparse)⟩)
      | ok p => exact .inr ⟨rfl, rfl, p, rfl⟩

/-- Once an expression is read, its steps are built if they are asked for, and they fit the table. -/
theorem exists_steps {r : Request} {p : Parsed}
    (hvalid : Variables.validate r.names settings.maxVariables = .ok r.names)
    (hparse : parse (Text.trimmed r.expression) r.names = .ok p) :
    ∃ steps, r.steps settings (Text.trimmed r.expression) r.names = .ok steps ∧
      Steps.Fit (Text.trimmed r.expression) r.names steps ∧ (r.showsSteps settings = false → steps = []) := by
  unfold Request.steps
  cases r.showsSteps settings with
  | false => exact ⟨[], rfl, .nil _ _, fun _ => rfl⟩
  | true =>
    obtain ⟨steps, hsteps⟩ := Steps.exists_build hparse fun name hn => Variables.isWord_of_mem hvalid hn
    exact ⟨steps, hsteps, Steps.fit_of_build hsteps (Text.trimmed_trimmed r.expression), fun h => by cases h⟩

/-- Once an expression is read, the request is answered with a filled table. -/
theorem evaluate_eq_ok_of_parse (r : Request) {p : Parsed} {verdict : Verdict}
    (hblank : Text.isBlankText r.expression = false)
    (hvalid : Variables.validate r.names settings.maxVariables = .ok r.names)
    (hparse : parse (Text.trimmed r.expression) r.names = .ok p)
    (hverdict : Verdict.ofColumn (TruthTable.filled p.formula (Text.trimmed r.expression) r.names []).results =
      .ok verdict) :
    ∃ steps, Steps.Fit (Text.trimmed r.expression) r.names steps ∧
      (r.showsSteps settings = false → steps = []) ∧
        r.evaluate settings = .ok ⟨r, p, TruthTable.filled p.formula (Text.trimmed r.expression) r.names steps,
          verdict, p.formula.unconditional, p.formula.circuit, r.showsSteps settings⟩ := by
  obtain ⟨steps, hsteps, hfit, hnone⟩ := exists_steps hvalid hparse
  refine ⟨steps, hfit, hnone, evaluate_eq_ok_iff.2 ?_⟩
  have hdeclared : ∀ name ∈ p.formula.atoms, name ∈ r.names :=
    fun name hn => (parse_eq_ok_iff.1 hparse).mem_declared hn
  rw [TruthTable.results_filled] at hverdict
  exact ⟨hblank, hvalid, hparse, ⟨steps, hsteps, TruthTable.ofFormula_eq_ok hfit hdeclared⟩,
    TruthTable.results_filled ▸ hverdict, rfl, rfl, rfl, rfl⟩

/-- Asking for steps never changes an outcome: both requests are refused by the same fault, or both
are answered and the answers differ by the columns of the steps only. In particular, once the names
are accepted and a text is read, its steps can be built. -/
theorem steps_add_columns (expression : String) (names : List String) (settings : Settings) :
    ((∃ f : Fault, (⟨expression, names, some true⟩ : Request).evaluate settings = .error (.fault f) ∧
        (⟨expression, names, some false⟩ : Request).evaluate settings = .error (.fault f)) ∨
      ∃ e plain, (⟨expression, names, some true⟩ : Request).evaluate settings = .ok e ∧
        (⟨expression, names, some false⟩ : Request).evaluate settings = .ok plain ∧ e.AddsSteps plain) ∧
    ∀ source p, Variables.validate names settings.maxVariables = .ok names → parse source names = .ok p →
      ∃ steps, Steps.build source names = .ok steps := by
  refine ⟨?_, fun source p hvalid hparse =>
    Steps.exists_build hparse fun name hn => Variables.isWord_of_mem hvalid hn⟩
  rcases refused_or_read expression names settings with ⟨f, hf⟩ | ⟨hblank, hvalid, p, hparse⟩
  · exact .inl ⟨f, hf (some true), hf (some false)⟩
  · obtain ⟨verdict, hverdict⟩ := TruthTable.exists_verdict p.formula (Text.trimmed expression) names []
    obtain ⟨steps, hfit, _, he⟩ :=
      evaluate_eq_ok_of_parse ⟨expression, names, some true⟩ hblank hvalid hparse hverdict
    obtain ⟨noSteps, _, hnone, hplain⟩ :=
      evaluate_eq_ok_of_parse ⟨expression, names, some false⟩ hblank hvalid hparse hverdict
    obtain rfl := hnone rfl
    refine .inr ⟨_, _, he, hplain, rfl, rfl, rfl, rfl, rfl, rfl, rfl, rfl, ?_⟩
    rw [TruthTable.filled, TruthTable.filled, List.forall₂_map_left_iff, List.forall₂_map_right_iff,
      List.forall₂_same]
    exact fun entry _ => TruthTable.addsCells_filledRow hfit entry

/-- The steps of `~{p} -> (q ^ {p})` over two names. -/
theorem steps_add_columns_groups :
    let names := ["p", "q"]
    Variables.validate names ({ } : Settings).maxVariables = .ok names ∧
      ∃ p, parse "~{p} -> (q ^ {p})" names = .ok p ∧
        ∃ steps, Steps.build "~{p} -> (q ^ {p})" names = .ok steps := by
  intro names
  have hnames : (Variables.validate names ({ } : Settings).maxVariables).toOption = some names := by
    decide +kernel
  have hread : (parse "~{p} -> (q ^ {p})" names).toOption.isSome = true := by decide +kernel
  obtain ⟨p, hp⟩ := Option.isSome_iff_exists.1 hread
  have hvalid := Outcome.toOption_eq_some_iff.1 hnames
  have hparse := Outcome.toOption_eq_some_iff.1 hp
  exact ⟨hvalid, p, hparse, (steps_add_columns "~{p} -> (q ^ {p})" names { }).2 _ p hvalid hparse⟩

end Request

/-- The table of an answer is filled, with steps that fit it. -/
theorem Evaluation.Stages.exists_filled {r : Request} {settings : Settings} {e : Evaluation}
    (h : e.Stages r settings) : ∃ steps, Steps.Fit (Text.trimmed r.expression) r.names steps ∧
      e.table = TruthTable.filled e.parsed.formula (Text.trimmed r.expression) r.names steps := by
  obtain ⟨steps, hsteps, htable⟩ := h.table
  obtain ⟨steps', hsteps', hfit, _⟩ := Request.exists_steps h.valid h.parsed
  cases hsteps.symm.trans hsteps'
  have hdeclared : ∀ name ∈ e.parsed.formula.atoms, name ∈ r.names :=
    fun name hn => (parse_eq_ok_iff.1 h.parsed).mem_declared hn
  have hfilled := htable.symm.trans (TruthTable.ofFormula_eq_ok hfit hdeclared)
  exact ⟨steps, hfit, Except.ok.inj hfilled⟩

end Sentential
