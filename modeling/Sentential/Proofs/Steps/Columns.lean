import Sentential.Proofs.Steps.Neutral

/-!
# Columns of the steps

The labels of the steps are arranged by length, and under one length as the expression offers them
(`labels_arranged`). A label inside another one is shorter, so its column stands further left. Since
no label is the expression or another label, the cells of a row have as many keys as the table has
columns behind its names.
-/

namespace Sentential

namespace Steps

variable {source : String} {names ls : List String} {a b : String}

/-- The labels are the groups between matching brackets, the names and their negations, without the expression.
None stands twice, shorter ones come first, those of one length stand in the order in which they are
offered first, and a label inside another one comes before it. -/
structure Arranged (source : String) (names ls : List String) : Prop where
  nodup : ls.Nodup
  length_le : ls.Pairwise fun a b => a.length ≤ b.length
  mem_iff : ∀ label, label ∈ ls ↔
    ((∃ i j, Bracket.Matched source.toList i j ∧
        label = String.ofList (Bracket.slice source.toList (i, j))) ∨
      ∃ name ∈ names, label = name ∨ label = negated name) ∧ label ≠ Text.trimmed source
  offered_first : ∀ a ∈ ls, ∀ b ∈ ls, a.length = b.length →
    (ls.idxOf a < ls.idxOf b ↔ (offered source names).idxOf a < (offered source names).idxOf b)
  inner_first : ∀ a ∈ ls, ∀ b ∈ ls, a ≠ b → a.toList <:+: b.toList → ls.idxOf a < ls.idxOf b

/-- The groups of an expression are its slices between matching brackets. -/
theorem isCandidate_iff {label : String} : IsCandidate source names label ↔
    (∃ i j, Bracket.Matched source.toList i j ∧
        label = String.ofList (Bracket.slice source.toList (i, j))) ∨
      ∃ name ∈ names, label = name ∨ label = negated name := by
  unfold IsCandidate
  refine or_congr_left ⟨?_, ?_⟩
  · rintro ⟨⟨i, j⟩, hspan, hlabel⟩
    exact ⟨i, j, Bracket.mem_spans_iff.1 hspan, hlabel⟩
  · rintro ⟨i, j, hmatched, hlabel⟩
    exact ⟨(i, j), Bracket.mem_spans_iff.2 hmatched, hlabel⟩

/-- A text inside another one is shorter. -/
theorem length_lt_of_isInfix (hne : a ≠ b) (h : a.toList <:+: b.toList) : a.length < b.length := by
  rw [← String.length_toList, ← String.length_toList]
  refine Nat.lt_of_le_of_ne h.length_le fun heq => hne ?_
  exact String.toList_injective (h.eq_of_length heq)

theorem labels_arranged (h : labels source names = .ok ls) : Arranged source names ls := by
  have hsorted := pairwise_labels h
  have hidx : ∀ a ∈ ls, ∀ b ∈ ls, (ls.idxOf a < ls.idxOf b ↔ Before source names a b) := by
    intro a ha b hb
    exact idxOf_lt_iff_of_pairwise hsorted (fun _ _ => Before.asymm) ha hb
  refine ⟨nodup_labels h, hsorted.imp ?_, fun label => ?_, ?_, ?_⟩
  · intro a b hab
    unfold Before at hab
    omega
  · rw [mem_labels_iff h, isCandidate_iff]
  · intro a ha b hb hlength
    rw [hidx a ha b hb, Before]
    omega
  · intro a ha b hb hne hinfix
    exact (hidx a ha b hb).2 (.inl (length_lt_of_isInfix hne hinfix))

end Steps

namespace TruthTable

variable {formula : Formula} {expression : String} {names : List String} {steps : List Steps.Step}

/-- The keys of a row are the columns behind the names. -/
theorem keys_of_mem_filled {row : Row} (h : row ∈ (filled formula expression names steps).rows) :
    row.values.map Prod.fst = steps.map (·.label) ++ [expression] := by
  obtain ⟨entry, _, rfl⟩ := List.mem_map.1 h
  rw [filledRow, List.map_append, Steps.fst_cells]
  rfl

/-- No two columns behind the names have one heading. -/
theorem nodup_columns (h : Steps.Fit expression names steps) :
    (steps.map (·.label) ++ [expression]).Nodup := by
  refine List.nodup_append.2 ⟨h.nodup, List.nodup_singleton expression, ?_⟩
  intro label hlabel other hother heq
  rw [heq, List.mem_singleton.1 hother] at hlabel
  exact h.not_mem hlabel

end TruthTable

/-- The table of an answer shows the labels of the expression, or no steps. -/
theorem Evaluation.Stages.labels_eq {r : Request} {settings : Settings} {e : Evaluation}
    (h : e.Stages r settings) :
    (r.showsSteps settings = true →
      Steps.labels (Text.trimmed r.expression) r.names = .ok e.table.steps) ∧
    (r.showsSteps settings = false → e.table.steps = []) := by
  obtain ⟨steps, hsteps, htable⟩ := h.table
  obtain ⟨_, _, hcolumns⟩ := TruthTable.ofFormula_eq_ok_iff.1 htable
  have heq : e.table.steps = steps.map (·.label) := congrArg TruthTable.steps hcolumns
  rw [heq]
  unfold Request.steps at hsteps
  refine ⟨fun hshows => ?_, fun hshows => ?_⟩
  · rw [if_pos hshows] at hsteps
    exact Steps.labels_of_build hsteps
  · rw [if_neg (by simp [hshows])] at hsteps
    rw [← Except.ok.inj hsteps]
    rfl

/-- The steps that a table shows are candidates for a label. -/
theorem Evaluation.Stages.isCandidate_of_mem {r : Request} {settings : Settings} {e : Evaluation}
    (h : e.Stages r settings) {label : String} (hlabel : label ∈ e.table.steps) :
    Steps.IsCandidate (Text.trimmed r.expression) r.names label := by
  obtain ⟨hshown, hnone⟩ := h.labels_eq
  cases hshows : r.showsSteps settings with
  | true => exact ((Steps.mem_labels_iff (hshown hshows)).1 hlabel).1
  | false =>
    rw [hnone hshows] at hlabel
    cases hlabel

/-- The labels of an expression whose brackets balance are arranged, and the groups among them are offered in
the order in which they close. In the table of an answer the cells of each row have the labels and the
expression as keys, and no two of these are alike. -/
theorem Steps.labels_key_rows :
    (∀ source names, Bracket.firstUnbalanced source.toList = none →
      (∀ i j, (i, j) ∈ Bracket.spans source.toList ↔ Bracket.Matched source.toList i j) ∧
      ((Bracket.spans source.toList).Pairwise fun s t => s.2 < t.2) ∧
      ∃ ls, labels source names = .ok ls ∧ Arranged source names ls) ∧
    ∀ (r : Request) settings e, r.evaluate settings = .ok e →
      (r.showsSteps settings = true → labels (Text.trimmed r.expression) r.names = .ok e.table.steps) ∧
      (r.showsSteps settings = false → e.table.steps = []) ∧
      e.table.expression = Text.trimmed r.expression ∧ (e.table.steps ++ [e.table.expression]).Nodup ∧
      ∀ row ∈ e.table.rows, row.values.map Prod.fst = e.table.steps ++ [e.table.expression] := by
  refine ⟨fun source names hb => ⟨?_, ?_, ?_⟩, fun r settings e he => ?_⟩
  · intro i j
    exact Bracket.mem_spans_iff
  · exact Bracket.pairwise_spans source.toList
  · obtain ⟨ls, hls⟩ : ∃ ls, labels source names = .ok ls := ⟨_, labels_eq_ok_iff.2 ⟨hb, rfl⟩⟩
    exact ⟨ls, hls, labels_arranged hls⟩
  · have hstages := Request.evaluate_eq_ok_iff.1 he
    obtain ⟨hshown, hnone⟩ := hstages.labels_eq
    obtain ⟨steps, hfit, htable⟩ := hstages.exists_filled
    refine ⟨hshown, hnone, ?_, ?_, ?_⟩
    · rw [htable]
      rfl
    · rw [htable]
      exact TruthTable.nodup_columns hfit
    · rw [htable]
      exact fun row hrow => TruthTable.keys_of_mem_filled hrow

/-- Of ` ({p} & q) ` the outer group is the expression itself, and `p` comes before the inner one. -/
theorem Steps.labels_key_rows_nested :
    let source := " ({p} & q) "
    let r : Request := ⟨source, ["p", "q"], some true⟩
    Bracket.firstUnbalanced source.toList = none ∧
      (∃ ls, labels source ["p", "q"] = .ok ls ∧ "({p} & q)" ∉ ls ∧ ls.idxOf "p" < ls.idxOf "{p}") ∧
      ∃ e, r.evaluate { } = .ok e ∧
        ∀ row ∈ e.table.rows, row.values.map Prod.fst = e.table.steps ++ [e.table.expression] := by
  intro source r
  have hb : Bracket.firstUnbalanced source.toList = none := by decide +kernel
  have hread : (parse (Text.trimmed source) ["p", "q"]).toOption.isSome = true := by decide +kernel
  have hnames : (Variables.validate ["p", "q"] ({ } : Settings).maxVariables).toOption = some ["p", "q"] := by
    decide +kernel
  obtain ⟨p, hp⟩ := Option.isSome_iff_exists.1 hread
  have hparse := Outcome.toOption_eq_some_iff.1 hp
  have hvalid := Outcome.toOption_eq_some_iff.1 hnames
  obtain ⟨verdict, hverdict⟩ := TruthTable.exists_verdict p.formula (Text.trimmed source) ["p", "q"] []
  obtain ⟨_, _, _, he⟩ := Request.evaluate_eq_ok_of_parse r (by decide +kernel) hvalid hparse hverdict
  obtain ⟨harranged, hrows⟩ := labels_key_rows
  obtain ⟨hspans, _, ls, hls, h⟩ := harranged source ["p", "q"] hb
  have hspan : (2, 4) ∈ Bracket.spans source.toList := by decide +kernel
  have hname : "p" ∈ ls := (h.mem_iff "p").2 ⟨.inr ⟨"p", by simp, .inl rfl⟩, by decide +kernel⟩
  have hgroup : "{p}" ∈ ls :=
    (h.mem_iff "{p}").2 ⟨.inl ⟨2, 4, (hspans 2 4).1 hspan, by decide +kernel⟩, by decide +kernel⟩
  have hwhole : "({p} & q)" ∉ ls := fun hmem => ((h.mem_iff _).1 hmem).2 (by decide +kernel)
  have hbefore := h.inner_first "p" hname "{p}" hgroup (by decide) ⟨['{'], ['}'], rfl⟩
  exact ⟨hb, ⟨ls, hls, hwhole, hbefore⟩, _, he, (hrows r { } _ he).2.2.2.2⟩

end Sentential
