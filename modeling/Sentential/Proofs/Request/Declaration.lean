import Sentential.Proofs.Steps.Neutral
import Sentential.Proofs.TruthTable.Verdict

/-!
# Other declarations of the same variables

What an expression means does not depend on the list that declares its variables. Reading asks only whether
a name is declared, so over more names, or the same names in another order, an expression is read alike
(`Parsed.Stages.mono`). The two tables differ in the number and the order of their rows, but each row of
one agrees with a row of the other on the names that both declare, and rows that agree there have the
same result (`Request.declaring_more_keeps_meaning`).
-/

namespace Sentential

/-- Two rows give the same values to these names. -/
def TruthTable.Row.AgreesOn (names : List String) (row row' : Row) : Prop :=
  ∀ name ∈ names, row'.assignment.lookup name = row.assignment.lookup name

/-- The answer `e'` says of the expression what the answer `e` over `names` says. -/
structure Evaluation.SameMeaning (names : List String) (e e' : Evaluation) : Prop where
  tokens_eq : e'.parsed.tokens = e.parsed.tokens
  postfixTokens_eq : e'.parsed.postfixTokens = e.parsed.postfixTokens
  formula_eq : e'.parsed.formula = e.parsed.formula
  simplified_eq : e'.simplified = e.simplified
  circuit_eq : e'.circuit = e.circuit
  verdict_eq : e'.verdict = e.verdict
  /-- Every row of one table has rows in the other that agree with it. -/
  exists_row : (∀ row ∈ e.table.rows, ∃ row' ∈ e'.table.rows, row.AgreesOn names row') ∧
    ∀ row' ∈ e'.table.rows, ∃ row ∈ e.table.rows, row.AgreesOn names row'
  result_eq : ∀ row ∈ e.table.rows, ∀ row' ∈ e'.table.rows, row.AgreesOn names row' → row'.result = row.result

namespace TruthTable

variable {formula : Formula} {expression expression' : String} {names more : List String}
  {steps steps' : List Steps.Step}

/-- Rows that agree on the variables of the formula have the same result. -/
theorem result_eq_of_agreesOn (hf : ∀ name ∈ formula.atoms, name ∈ names) {row row' : Row}
    (hrow : row ∈ (filled formula expression names steps).rows)
    (hrow' : row' ∈ (filled formula expression' more steps').rows) (h : row.AgreesOn names row') :
    row'.result = row.result := by
  rw [result_of_mem_filled hrow, result_of_mem_filled hrow']
  refine Formula.holds_congr fun name hn => ?_
  rw [Assignment.valuation, Assignment.valuation, h name (hf name hn)]

/-- To every row there is one of the other table that agrees with it on the names that both declare. -/
theorem exists_agreeing_row {row : Row} (hrow : row ∈ (filled formula expression names steps).rows)
    (more : List String) : ∃ row' ∈ (filled formula expression' more steps').rows,
      ∀ name ∈ names, name ∈ more → row'.assignment.lookup name = row.assignment.lookup name := by
  have ha : row.assignment ∈ Variables.assignments names :=
    assignments_filled ▸ List.mem_map_of_mem hrow
  obtain ⟨b, hb, hagree⟩ := Variables.exists_assignment_agreeing ha more
  have hrows : b ∈ (filled formula expression' more steps').rows.map (·.assignment) := by
    rw [assignments_filled]
    exact hb
  obtain ⟨row', hrow', rfl⟩ := List.mem_map.1 hrows
  exact ⟨row', hrow', hagree⟩

/-- Over more names, the rows agree with the rows over fewer, each with some. -/
theorem exists_agreesOn (hsub : ∀ name ∈ names, name ∈ more) :
    (∀ row ∈ (filled formula expression names steps).rows,
      ∃ row' ∈ (filled formula expression' more steps').rows, row.AgreesOn names row') ∧
    ∀ row' ∈ (filled formula expression' more steps').rows,
      ∃ row ∈ (filled formula expression names steps).rows, row.AgreesOn names row' := by
  constructor
  · intro row hrow
    obtain ⟨row', hrow', hagree⟩ := exists_agreeing_row hrow more
    exact ⟨row', hrow', fun name hn => hagree name hn (hsub name hn)⟩
  · intro row' hrow'
    obtain ⟨row, hrow, hagree⟩ := exists_agreeing_row hrow' names
    exact ⟨row, hrow, fun name hn => (hagree name (hsub name hn) hn).symm⟩

/-- The verdict does not depend on which names are declared besides the variables of the formula. -/
theorem verdict_filled_eq (hf : ∀ name ∈ formula.atoms, name ∈ names) (hsub : ∀ name ∈ names, name ∈ more) :
    Verdict.ofColumn (filled formula expression' more steps').results =
      Verdict.ofColumn (filled formula expression names steps).results := by
  refine Verdict.ofColumn_congr fun b => ?_
  constructor
  · intro hb
    obtain ⟨row', hrow', rfl⟩ := List.mem_map.1 hb
    obtain ⟨row, hrow, hagrees⟩ := (exists_agreesOn hsub).2 row' hrow'
    exact List.mem_map.2 ⟨row, hrow, (result_eq_of_agreesOn hf hrow hrow' hagrees).symm⟩
  · intro hb
    obtain ⟨row, hrow, rfl⟩ := List.mem_map.1 hb
    obtain ⟨row', hrow', hagrees⟩ := (exists_agreesOn hsub).1 row hrow
    exact List.mem_map.2 ⟨row', hrow', result_eq_of_agreesOn hf hrow hrow' hagrees⟩

end TruthTable

namespace Request

/-- Declaring the variables in another order, or declaring more of them, never changes what an expression
means. If a request is answered, then so is the request over any accepted names that include its own, with
or without steps. The tokens, the formula, its simplified form, its circuit and the verdict are the
same, and rows that agree on the names of the first have the same result. -/
theorem declaring_more_keeps_meaning {expression : String} {names more : List String} {settings : Settings}
    (hmore : Variables.validate more settings.maxVariables = .ok more) (hsub : ∀ name ∈ names, name ∈ more)
    {showSteps : Option Bool} {e : Evaluation}
    (h : (⟨expression, names, showSteps⟩ : Request).evaluate settings = .ok e) (showSteps' : Option Bool) :
    ∃ e', (⟨expression, more, showSteps'⟩ : Request).evaluate settings = .ok e' ∧ e.SameMeaning names e' := by
  have hstages := evaluate_eq_ok_iff.1 h
  have hparsed := parse_eq_ok_iff.1 hstages.parsed
  have hdeclared : ∀ name ∈ e.parsed.formula.atoms, name ∈ names := fun name hn => hparsed.mem_declared hn
  obtain ⟨steps, _, htable⟩ := hstages.exists_filled
  have hverdict : Verdict.ofColumn
      (TruthTable.filled e.parsed.formula (Text.trimmed expression) more []).results = .ok e.verdict := by
    rw [← hstages.verdict, htable]
    exact TruthTable.verdict_filled_eq hdeclared hsub
  have hparse : parse (Text.trimmed expression) more = .ok e.parsed := parse_eq_ok_iff.2 (hparsed.mono hsub)
  obtain ⟨steps', _, _, he'⟩ :=
    evaluate_eq_ok_of_parse ⟨expression, more, showSteps'⟩ hstages.notBlank hmore hparse hverdict
  refine ⟨_, he', rfl, rfl, rfl, hstages.simplified_eq.symm, hstages.circuit_eq.symm, rfl, ?_, ?_⟩
  · rw [htable]
    exact TruthTable.exists_agreesOn hsub
  · intro row hrow row' hrow' hagree
    rw [htable] at hrow
    exact TruthTable.result_eq_of_agreesOn hdeclared hrow hrow' hagree

/-- The request for `~p -> {q}` over two names, and over these in another order and a third one. -/
theorem declaring_more_keeps_meaning_reordered :
    let names := ["q", "p"]
    let more := ["r", "p", "q"]
    Variables.validate more ({ } : Settings).maxVariables = .ok more ∧ (∀ name ∈ names, name ∈ more) ∧
      ∃ e, (⟨" ~p -> {q}", names, none⟩ : Request).evaluate { } = .ok e ∧ e.verdict = .contingency ∧
        ∃ e', (⟨" ~p -> {q}", more, some true⟩ : Request).evaluate { } = .ok e' ∧ e.SameMeaning names e' := by
  intro names more
  have hmore : (Variables.validate more ({ } : Settings).maxVariables).toOption = some more := by decide +kernel
  have hanswer : ((⟨" ~p -> {q}", names, none⟩ : Request).evaluate { }).toOption.map (·.verdict) =
      some .contingency := by decide +kernel
  obtain ⟨e, he, hverdict⟩ := Option.map_eq_some_iff.1 hanswer
  have hmore := Outcome.toOption_eq_some_iff.1 hmore
  have he := Outcome.toOption_eq_some_iff.1 he
  have hsub : ∀ name ∈ names, name ∈ more := by decide
  exact ⟨hmore, hsub, e, he, hverdict, declaring_more_keeps_meaning hmore hsub he (some true)⟩

end Request

end Sentential
