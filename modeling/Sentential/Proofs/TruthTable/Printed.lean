import Sentential.Proofs.TruthTable.Filled
import Sentential.TruthTable.Render

/-!
# The text of a table

Printing looks up every cell of a row by its column and fails where there is none. In a known style, a
table whose rows have all their cells is printed, and its lines are known outright (`render_eq_ok`). Filled
tables have all their cells (`Row.fills_of_mem_filled`).
-/

namespace Sentential.TruthTable

/-- The row has a value for every variable and every step of a table. -/
structure Row.Fills (names steps : List String) (row : Row) : Prop where
  names : ∀ name ∈ names, (row.assignment.lookup name).isSome = true
  steps : ∀ step ∈ steps, (row.values.lookup step).isSome = true

/-- The truth values of a row in the order of the columns. -/
def Row.entries (names steps : List String) (row : Row) : List Bool :=
  names.map row.assignment.valuation ++ steps.map (Assignment.valuation row.values) ++ [row.result]

/-- The cells of a row: the marks of its truth values. -/
def Row.marks (style : Style) (names steps : List String) (row : Row) : List (List Char) :=
  (row.entries names steps).map fun b => [style.mark b]

/-- The lines of a table: the headings, the dashes under them, and the marks of the rows. -/
def printed (t : TruthTable) (style : Style) : List (List Char) :=
  let headings := t.columns.map String.toList
  let widths := headings.map List.length
  line widths headings :: line widths (widths.map fun width => List.replicate width '-') ::
    (t.rows.map (Row.marks style t.names t.steps)).map (line widths)

variable {t : TruthTable} {row : Row} {style : Style}

theorem mark_eq_ok (style : Style) (b : Bool) : mark style.name b = .ok (style.mark b) := by
  rw [mark, Style.ofName?_name]

/-- The cell of a column that has a value. -/
theorem cell_eq_ok {values : Assignment} {column : String} (h : (values.lookup column).isSome = true) :
    cell style.name values column = .ok [style.mark (values.valuation column)] := by
  obtain ⟨b, hb⟩ := Option.isSome_iff_exists.1 h
  simp only [cell, Assignment.valuation, hb, mark_eq_ok]
  rfl

/-- The cells of a row are the marks of its values. -/
theorem cells_eq_ok (h : row.Fills t.names t.steps) :
    t.cells style.name row = .ok (row.marks style t.names t.steps) := by
  have hnames : t.names.mapM (cell style.name row.assignment) = .ok _ :=
    Outcome.mapM_eq_ok_map fun name hn => cell_eq_ok (h.names name hn)
  have hsteps : t.steps.mapM (cell style.name row.values) = .ok _ :=
    Outcome.mapM_eq_ok_map fun step hs => cell_eq_ok (h.steps step hs)
  rw [cells, hnames, hsteps, mark_eq_ok, Row.marks, Row.entries, List.map_append, List.map_append,
    List.map_map, List.map_map]
  rfl

/-- A table whose rows have all their cells is printed. -/
theorem render_eq_ok (h : ∀ row ∈ t.rows, row.Fills t.names t.steps) :
    t.render style.name = .ok (String.ofList (['\n'].intercalate (t.printed style))) := by
  have hbody : t.rows.mapM (t.cells style.name) = .ok _ :=
    Outcome.mapM_eq_ok_map fun row hrow => cells_eq_ok (h row hrow)
  rw [render, lines, hbody]
  rfl

/-- The rows of a filled table have all their cells. -/
theorem Row.fills_of_mem_filled {formula : Formula} {expression : String} {names : List String}
    {steps : List Steps.Step} (h : row ∈ (filled formula expression names steps).rows) :
    row.Fills names (steps.map (·.label)) := by
  have ha : row.assignment ∈ Variables.assignments names := assignments_filled ▸ List.mem_map_of_mem h
  obtain ⟨index, _, hrow⟩ := Variables.mem_assignments.1 ha
  obtain ⟨entry, _, rfl⟩ := List.mem_map.1 h
  refine ⟨fun name hn => hrow ▸ Variables.lookup_row_isSome hn, fun label hlabel => ?_⟩
  have hkey : label ∈ (filledRow formula expression steps entry).values.map Prod.fst := by
    rw [filledRow, List.map_append, Steps.fst_cells]
    exact List.mem_append_left _ hlabel
  obtain ⟨b, hb⟩ := Record.mem_keys_iff.1 hkey
  rw [hb]
  rfl

end Sentential.TruthTable
