import Sentential.Proofs.TruthTable.Line

/-!
# Reading a printed table back

The rows of a printed table are its last lines, one line each. The marks stand between bars, with blanks around
them, so cutting a line at the bars and trimming the pieces gives the truth values of the row, in the order of the
columns (`rows_read_back`). Headings play no part in this: they may be empty, hold bars or break lines.
-/

namespace Sentential

/-- The truth value whose mark a text is. -/
def Style.value? (style : Style) (cs : List Char) : Option Bool := [true, false].find? fun b => [style.mark b] == cs

@[simp] theorem Style.value?_mark (style : Style) (b : Bool) : style.value? [style.mark b] = some b := by
  cases style <;> cases b <;> rfl

namespace TruthTable

variable {t : TruthTable} {style : Style} {row : Row} {names steps : List String}

/-- The entries of a row that has all its cells are what its records hold, and the result. -/
theorem Row.map_some_entries (h : row.Fills names steps) : (row.entries names steps).map some =
    (names.map fun name => row.assignment.lookup name) ++ (steps.map fun step => row.values.lookup step) ++
      [some row.result] := by
  have hvaluation : ∀ {values : Assignment} {column : String}, (values.lookup column).isSome = true →
      some (values.valuation column) = values.lookup column := by
    intro values column hcolumn
    obtain ⟨b, hb⟩ := Option.isSome_iff_exists.1 hcolumn
    rw [Assignment.valuation, hb, Option.getD_some]
  rw [entries, List.map_append, List.map_append, List.map_map, List.map_map]
  congr 2
  · exact List.map_congr_left fun name hname => hvaluation (h.names name hname)
  · exact List.map_congr_left fun step hstep => hvaluation (h.steps step hstep)

/-- The pieces of a row's line are its marks. -/
theorem map_trim_pieces_rowLine (t : TruthTable) (style : Style) (row : Row) :
    (Text.pieces '|' (t.rowLine style row)).map Text.trim = row.marks style t.names t.steps := by
  have hbar : ∀ cell ∈ row.marks style t.names t.steps, '|' ∉ cell := by
    intro cell hcell hmem
    obtain ⟨b, _, rfl⟩ := List.mem_map.1 hcell
    exact mark_ne_bar style b (List.mem_singleton.1 hmem).symm
  have htrim : ∀ cell ∈ row.marks style t.names t.steps, Text.trim cell = cell := by
    intro cell hcell
    obtain ⟨b, _, rfl⟩ := List.mem_map.1 hcell
    exact Text.trim_eq_self (by simp [isBlank_mark]) (by simp [isBlank_mark])
  rw [marks_eq] at hbar
  rw [rowLine, widths_eq, marks_eq,
    map_trim_pieces_line (by simp [front, length_frontEntries]) (List.mem_singleton_self _)
      (isBlank_mark style row.result) hbar,
    ← marks_eq, List.map_congr_left htrim, List.map_id']

/-- The rows of a printed table can be read back. In a known style, a table whose rows have all their cells is
printed, whatever its headings are. The last lines of the text are one for each row. Cut at the bars and
trimmed, a line gives marks, and these stand for the values of the variables, the values of the steps and the
result of the row, in the order of the columns. -/
theorem rows_read_back {t : TruthTable} (style : Style) (h : ∀ row ∈ t.rows, row.Fills t.names t.steps) :
    ∃ text, t.render style.name = .ok text ∧
      List.Forall₂ (fun line row => ((Text.pieces '|' line).map fun piece => style.value? (Text.trim piece)) =
          (t.names.map fun name => row.assignment.lookup name) ++ (t.steps.map fun step => row.values.lookup step) ++
            [some row.result])
        ((Text.pieces '\n' text.toList).rtake t.rows.length) t.rows := by
  -- The headings may take any number of lines, so the rows are found from the end.
  have hlast : (Text.pieces '\n' (['\n'].intercalate (t.printed style))).rtake t.rows.length =
      t.rows.map (t.rowLine style) := by
    rw [pieces_printed, List.append_cons, List.rtake, List.length_append, List.length_map, Nat.add_sub_cancel,
      List.drop_left]
  refine ⟨_, render_eq_ok h, ?_⟩
  rw [String.toList_ofList, hlast, List.forall₂_map_left_iff, List.forall₂_same]
  intro row hrow
  calc (Text.pieces '|' (t.rowLine style row)).map (fun piece => style.value? (Text.trim piece))
      = ((Text.pieces '|' (t.rowLine style row)).map Text.trim).map style.value? := by rw [List.map_map]; rfl
    _ = (row.entries t.names t.steps).map some := by
        rw [map_trim_pieces_rowLine, Row.marks, List.map_map]
        exact List.map_congr_left fun b _ => style.value?_mark b
    _ = _ := Row.map_some_entries (h row hrow)

/-- A table with an empty heading, a heading with a bar, one with blanks around it and one with a line break. -/
theorem rows_read_back_headings :
    let t : TruthTable := ⟨["", "a|b"], "x\ny", [" s "], [⟨0, [("", true), ("a|b", false)], [(" s ", true)], false⟩]⟩
    (∀ row ∈ t.rows, row.Fills t.names t.steps) ∧
      ∃ text line, t.render Style.digits.name = .ok text ∧ (Text.pieces '\n' text.toList).rtake 1 = [line] ∧
        ((Text.pieces '|' line).map fun piece => Style.digits.value? (Text.trim piece)) =
          [some true, some false, some true, some false] := by
  intro t
  have hfills : ∀ row ∈ t.rows, row.Fills t.names t.steps := by
    intro row hrow
    obtain rfl := List.mem_singleton.1 hrow
    exact ⟨by decide, by decide⟩
  obtain ⟨text, htext, hlines⟩ := rows_read_back .digits hfills
  obtain ⟨line, rest, hline, hrest, hlast⟩ := List.forall₂_cons_right_iff.1 hlines
  rw [List.forall₂_nil_right_iff.1 hrest] at hlast
  exact ⟨hfills, text, line, htext, hlast, hline⟩

end TruthTable

end Sentential
