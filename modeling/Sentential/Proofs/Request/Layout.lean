import Sentential.Proofs.Steps.Columns
import Sentential.Proofs.Steps.Texts
import Sentential.Proofs.TruthTable.Aligned

/-!
# Layout of the table of a request

The table of an answered request can be printed, and the headings, the dashes and the rows are lines whose bars stand
below each other. Headings are the names and parts of the expression, and the blanks of an expression may be
line breaks. So the text has one line for each of them only if the expression is in one line; in general there is
one more for every line break in a heading (`Request.table_aligned`).
-/

namespace Sentential

namespace Evaluation.Stages

variable {r : Request} {settings : Settings} {e : Evaluation}

/-- The table of an answer has the names and the expression of the request, without the blanks around it. -/
theorem table_eq (h : e.Stages r settings) :
    e.table.names = r.names ∧ e.table.expression = Text.trimmed r.expression ∧
      e.table.rows.length = 2 ^ r.names.length := by
  obtain ⟨steps, _, htable⟩ := h.exists_filled
  have hassignments : e.table.rows.map (·.assignment) = Variables.assignments r.names := by
    rw [htable]
    exact TruthTable.assignments_filled
  have hrows := congrArg List.length hassignments
  rw [List.length_map, Variables.assignments, List.length_map, List.length_range] at hrows
  exact ⟨by rw [htable]; rfl, by rw [htable]; rfl, hrows⟩

/-- The declared names are words. -/
theorem isWord_of_mem (h : e.Stages r settings) : ∀ name ∈ r.names, Text.isWord name = true :=
  fun _ hname => Variables.isWord_of_mem h.valid hname

/-- The table of an answer has no empty heading, and its expression ends without blanks. -/
theorem presentable (h : e.Stages r settings) : e.table.Presentable := by
  obtain ⟨hnames, hexpression, _⟩ := h.table_eq
  refine ⟨fun column hcolumn => ?_, ?_, ?_⟩
  · have hne : column.toList ≠ [] := by
      rcases List.mem_append.1 hcolumn with hname | hstep
      · exact (Text.isWord_iff.1 (h.isWord_of_mem column (hnames ▸ hname))).1
      · exact (Steps.trimmed_of_isCandidate h.isWord_of_mem (h.isCandidate_of_mem hstep)).1
    exact String.length_toList ▸ List.length_pos_iff.2 hne
  · have hblank := h.notBlank
    rw [← Text.isBlankText_trimmed, ← hexpression, Text.isBlankText, List.all_eq_false] at hblank
    obtain ⟨c, hc, hblank⟩ := hblank
    exact ⟨c, hc, by simpa using hblank⟩
  · rw [hexpression, Text.trimmed, String.toList_ofList, Text.trimEnd_trim]

/-- If the expression is in one line, so is every heading. -/
theorem newline_not_mem (h : e.Stages r settings) (hline : '\n' ∉ (Text.trimmed r.expression).toList) :
    ∀ column ∈ e.table.columns, '\n' ∉ column.toList := by
  obtain ⟨hnames, hexpression, _⟩ := h.table_eq
  have hletter : Text.isLetter '\n' = false := Text.isLetter_of_isBlank (by decide)
  intro column hcolumn hmem
  rcases List.mem_append.1 hcolumn with hfront | hlast
  · rcases List.mem_append.1 hfront with hname | hstep
    · have hall := (Text.isWord_iff.1 (h.isWord_of_mem column (hnames ▸ hname))).2
      rw [hall '\n' hmem] at hletter
      cases hletter
    · have hcandidate := h.isCandidate_of_mem hstep
      exact hline (Steps.mem_of_isCandidate h.isWord_of_mem hcandidate hmem hletter (by decide))
  · rw [List.mem_singleton.1 hlast, hexpression] at hmem
    exact hline hmem

end Evaluation.Stages

namespace Request

open TruthTable (Aligned separator)

/-- The printed table of an answered request is a line of headings, a line of dashes and one line for each row, and
in all of them the bars stand where the headings put them. The line of headings has the headings as they are.
Each line break in a heading makes one more line of the text, and if there is none in the expression, then there is
none in any heading. -/
theorem table_aligned {r : Request} {settings : Settings} {e : Evaluation} (h : r.evaluate settings = .ok e)
    (style : Style) :
    ∃ text heading rest, e.table.render style.name = .ok text ∧
      heading = separator.intercalate (e.table.columns.map String.toList) ∧
      Text.pieces '\n' text.toList = Text.pieces '\n' heading ++ rest ∧
      rest.length = 1 + 2 ^ r.names.length ∧ (∀ line ∈ heading :: rest, Aligned e.table.columns line) ∧
      (Text.pieces '\n' text.toList).length =
        2 + 2 ^ r.names.length + (e.table.columns.map fun column => column.toList.count '\n').sum ∧
      ('\n' ∉ (Text.trimmed r.expression).toList → Text.pieces '\n' text.toList = heading :: rest) := by
  have hstages := evaluate_eq_ok_iff.1 h
  have hpresentable := hstages.presentable
  obtain ⟨_, _, hlength⟩ := hstages.table_eq
  obtain ⟨steps, _, htable⟩ := hstages.exists_filled
  have hfills : ∀ row ∈ e.table.rows, row.Fills e.table.names e.table.steps := by
    rw [htable]
    exact fun row hrow => TruthTable.Row.fills_of_mem_filled hrow
  have hpieces := TruthTable.pieces_printed e.table style
  refine ⟨_, e.table.heading, e.table.dashes :: e.table.rows.map (e.table.rowLine style), TruthTable.render_eq_ok hfills,
    hpresentable.heading_eq, ?_⟩
  rw [String.toList_ofList, hpieces]
  refine ⟨rfl, ?_, fun line hline => ?_, ?_, fun hline => ?_⟩
  · rw [List.length_cons, List.length_map, hlength]
    omega
  · rcases List.mem_cons.1 hline with rfl | hline
    · exact hpresentable.aligned_heading
    rcases List.mem_cons.1 hline with rfl | hline
    · exact hpresentable.aligned_dashes
    · obtain ⟨row, _, rfl⟩ := List.mem_map.1 hline
      exact hpresentable.aligned_rowLine style row
  · rw [List.length_append, Text.length_pieces, hpresentable.count_heading, List.length_cons, List.length_map, hlength]
    omega
  · rw [Text.pieces_of_not_mem (hpresentable.newline_not_mem_heading (hstages.newline_not_mem hline)),
      List.singleton_append]

/-- With its steps, the table of ` (p &\tq) | p ` has six lines. -/
theorem table_aligned_steps :
    let r : Request := ⟨" (p &\tq) | p ", ["p", "q"], some true⟩
    ∃ e text heading rest, r.evaluate { } = .ok e ∧ e.table.render Style.vraiFaux.name = .ok text ∧
      Text.pieces '\n' text.toList = heading :: rest ∧ rest.length = 5 ∧
        ∀ line ∈ heading :: rest, Aligned e.table.columns line := by
  intro r
  obtain ⟨p, hp⟩ : ∃ p, parse (Text.trimmed r.expression) r.names = .ok p :=
    Outcome.exists_eq_ok_of_isSome (by decide +kernel)
  have hnames : (Variables.validate r.names ({ } : Settings).maxVariables).toOption = some r.names := by decide +kernel
  obtain ⟨verdict, hverdict⟩ := TruthTable.exists_verdict p.formula (Text.trimmed r.expression) r.names []
  obtain ⟨_, _, _, he⟩ := evaluate_eq_ok_of_parse r (by decide +kernel) (Outcome.toOption_eq_some_iff.1 hnames)
    hp hverdict
  obtain ⟨text, heading, rest, htext, _, _, hlength, haligned, _, hlines⟩ := table_aligned he .vraiFaux
  exact ⟨_, text, heading, rest, he, htext, hlines (by decide +kernel), hlength, haligned⟩

/-- Not every printed table has one line for the headings, one for the dashes and one for each row: an expression
of two lines breaks the line of the headings. -/
theorem table_lines_not_always_rows :
    ¬ ∀ (r : Request) (settings : Settings) (e : Evaluation) (style : Style) (text : String),
      r.evaluate settings = .ok e → e.table.render style.name = .ok text →
        (Text.pieces '\n' text.toList).length = 2 + 2 ^ r.names.length := by
  intro h
  have hlines : ((((⟨"p &\nq", ["p", "q"], none⟩ : Request).evaluate { }).toOption.bind fun e =>
      (e.table.render Style.trueFalse.name).toOption).map fun text => (Text.pieces '\n' text.toList).length) =
        some 7 := by decide +kernel
  obtain ⟨text, htext, hlength⟩ := Option.map_eq_some_iff.1 hlines
  obtain ⟨e, he, htext⟩ := Option.bind_eq_some_iff.1 htext
  have hcount := h _ { } e .trueFalse text (Outcome.toOption_eq_some_iff.1 he) (Outcome.toOption_eq_some_iff.1 htext)
  rw [hlength] at hcount
  exact absurd hcount (by decide)

end Request

end Sentential
