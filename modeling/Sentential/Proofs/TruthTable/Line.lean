import Sentential.Proofs.Text.Pieces
import Sentential.Proofs.TruthTable.Printed

/-!
# Lines of a printed table

A line is its cells between bars, each cell in the middle of its place. Of the blanks around the cells only
those behind the last one are dropped (`line_concat`), so cutting a line at the bars gives the cells back up to
the blanks around them (`map_trim_pieces_line`). Only headings can hold line breaks. Where the printed text is
cut at its line breaks, the dashes and the rows therefore are one line each (`pieces_printed`).
-/

namespace Sentential.TruthTable

open Text (isBlank)

/-! ## Cells -/

variable {width : Nat} {cs : List Char}

/-- A cell fills its place, or goes beyond it if it is too long. -/
theorem length_center (width : Nat) (cs : List Char) : (center width cs).length = max width cs.length := by
  simp only [center, List.length_append, List.length_replicate]
  split <;> omega

/-- A cell that is as long as its place is wide has no blanks around it. -/
theorem center_length (cs : List Char) : center cs.length cs = cs := by
  simp [center]

theorem mem_center {c : Char} : c ∈ center width cs → c = ' ' ∨ c ∈ cs := by
  simp only [center, List.mem_append, List.mem_replicate]
  tauto

/-- The place of a cell adds nothing but blanks. -/
theorem trim_center (width : Nat) (cs : List Char) : Text.trim (center width cs) = Text.trim cs := by
  have hblank : ∀ n, ∀ b ∈ List.replicate n ' ', isBlank b = true := by
    intro n b hb
    rw [(List.mem_replicate.1 hb).2]
    decide
  rw [center, Text.trim_append_right (hblank _), Text.trim_append_left (hblank _)]

/-! ## Lines -/

section Lines

variable {widths : List Nat} {cells : List (List Char)} {cell : List Char}

/-- What stands in a place is a cell with blanks around it. -/
theorem exists_of_mem_zipWith_center {placed : List Char} (h : placed ∈ List.zipWith center widths cells) :
    ∃ width, ∃ cell ∈ cells, placed = center width cell := by
  obtain ⟨k, hk, rfl⟩ := List.getElem_of_mem h
  rw [List.getElem_zipWith]
  exact ⟨_, _, List.getElem_mem _, rfl⟩

/-- A line holds nothing but its cells, the bars and spaces. -/
theorem mem_line {c : Char} (h : c ∈ line widths cells) : c = ' ' ∨ c = '|' ∨ ∃ cell ∈ cells, c ∈ cell := by
  have hjoined : c ∈ separator.intercalate (List.zipWith center widths cells) :=
    (List.rdropWhile_prefix isBlank _).subset h
  rcases Text.mem_intercalate hjoined with hbar | ⟨placed, hplaced, hc⟩
  · simp only [separator, List.mem_cons, List.not_mem_nil, or_false] at hbar
    tauto
  · obtain ⟨width, cell, hcell, rfl⟩ := exists_of_mem_zipWith_center hplaced
    rcases mem_center hc with hspace | hc
    · exact .inl hspace
    · exact .inr (.inr ⟨cell, hcell, hc⟩)

/-- A line breaks only where a cell does. -/
theorem newline_not_mem_line (h : ∀ cell ∈ cells, '\n' ∉ cell) : '\n' ∉ line widths cells := by
  intro hmem
  rcases mem_line hmem with heq | heq | ⟨cell, hcell, hc⟩
  · cases heq
  · cases heq
  · exact h cell hcell hc

/-- If the last cell is not blank, a line is its cells between bars, where the last cell has lost the blanks behind
it. -/
theorem line_concat {c : Char} (hlength : widths.length = cells.length) (hc : c ∈ cell) (hblank : isBlank c = false) :
    line (widths ++ [width]) (cells ++ [cell]) =
      separator.intercalate (List.zipWith center widths cells ++ [Text.trimEnd (center width cell)]) := by
  have hplaced : c ∈ center width cell := by
    rw [center]
    exact List.mem_append_left _ (List.mem_append_right _ hc)
  rw [line, List.zipWith_append hlength, List.zipWith_cons_cons, List.zipWith_nil_left]
  -- Without cells in front there is no bar, and the line is the last cell alone.
  cases hfront : List.zipWith center widths cells with
  | nil => rw [List.nil_append, List.nil_append, List.intercalate_singleton, List.intercalate_singleton]
  | cons first rest =>
    rw [Text.intercalate_append _ (by simp) (by simp), Text.intercalate_append _ (by simp) (by simp),
      List.intercalate_singleton, List.intercalate_singleton, Text.trimEnd_append hplaced hblank]

/-- Cells without bars come back when the joined text is cut at the bars, up to blanks. -/
theorem map_trim_pieces_joined (hne : cells ≠ []) (hbar : ∀ cell ∈ cells, '|' ∉ cell) :
    (Text.pieces '|' (separator.intercalate cells)).map Text.trim = cells.map Text.trim := by
  induction cells with
  | nil => contradiction
  | cons cell cells ih =>
    cases cells with
    | nil => rw [List.intercalate_singleton, Text.pieces_of_not_mem (hbar cell List.mem_cons_self)]
    | cons cell' cells =>
      have hjoined : separator.intercalate (cell :: cell' :: cells) =
          cell ++ [' '] ++ '|' :: ' ' :: separator.intercalate (cell' :: cells) := by
        rw [List.intercalate_cons_cons, separator]
        simp
      have hcell : '|' ∉ cell ++ [' '] := by simpa using hbar cell List.mem_cons_self
      have hspace : Text.trim (cell ++ [' ']) = Text.trim cell :=
        Text.trim_append_right (List.forall_mem_singleton.2 (by decide))
      rw [hjoined, Text.pieces_append_cons, Text.pieces_of_not_mem hcell, List.map_append,
        Text.map_trim_pieces_cons (by decide) (by decide), ih (by simp) fun x hx => hbar x (List.mem_cons_of_mem _ hx)]
      simp [hspace]

/-- Cells without bars come back when their line is cut at the bars, up to blanks. -/
theorem map_trim_pieces_line {c : Char} (hlength : widths.length = cells.length) (hc : c ∈ cell)
    (hblank : isBlank c = false) (hbar : ∀ x ∈ cells ++ [cell], '|' ∉ x) :
    (Text.pieces '|' (line (widths ++ [width]) (cells ++ [cell]))).map Text.trim = (cells ++ [cell]).map Text.trim := by
  have hfront : (List.zipWith center widths cells).map Text.trim = cells.map Text.trim := by
    refine List.ext_getElem (by simp [hlength]) fun k _ _ => ?_
    simp [trim_center]
  have hplaced : ∀ x ∈ List.zipWith center widths cells ++ [Text.trimEnd (center width cell)], '|' ∉ x := by
    intro x hx hmem
    rcases List.mem_append.1 hx with hx | hx
    · obtain ⟨w, y, hy, rfl⟩ := exists_of_mem_zipWith_center hx
      exact hbar y (List.mem_append_left _ hy) ((mem_center hmem).resolve_left (by decide))
    · obtain rfl := List.mem_singleton.1 hx
      have hmem := (List.rdropWhile_prefix isBlank (center width cell)).subset hmem
      exact hbar cell (List.mem_append_right _ (List.mem_singleton_self cell)) ((mem_center hmem).resolve_left (by decide))
  rw [line_concat hlength hc hblank, map_trim_pieces_joined (by simp) hplaced, List.map_append, List.map_append, hfront,
    List.map_singleton, List.map_singleton, Text.trim_trimEnd, trim_center]

end Lines

/-! ## Tables -/

/-- A mark is not blank. -/
theorem isBlank_mark (style : Style) (b : Bool) : isBlank (style.mark b) = false := by
  cases style <;> cases b <;> decide

/-- A mark is no bar. -/
theorem mark_ne_bar (style : Style) (b : Bool) : style.mark b ≠ '|' := by
  cases style <;> cases b <;> decide

/-- The headings of the columns in front of the expression. -/
def front (t : TruthTable) : List String := t.names ++ t.steps

/-- The truth values of a row in these columns. -/
def Row.frontEntries (names steps : List String) (row : Row) : List Bool :=
  names.map row.assignment.valuation ++ steps.map (Assignment.valuation row.values)

/-- The widths of the columns. -/
def widths (t : TruthTable) : List Nat := (t.columns.map String.toList).map List.length

/-- The line of the headings. -/
def heading (t : TruthTable) : List Char := line t.widths (t.columns.map String.toList)

/-- The line of dashes under the headings. -/
def dashes (t : TruthTable) : List Char := line t.widths (t.widths.map fun width => List.replicate width '-')

/-- The line of a row. -/
def rowLine (t : TruthTable) (style : Style) (row : Row) : List Char := line t.widths (row.marks style t.names t.steps)

variable {t : TruthTable} {style : Style} {row : Row}

theorem printed_eq (t : TruthTable) (style : Style) :
    t.printed style = t.heading :: t.dashes :: t.rows.map (t.rowLine style) := by
  rw [printed, heading, dashes, widths, List.map_map (f := Row.marks style t.names t.steps)]
  rfl

theorem newline_not_mem_dashes (t : TruthTable) : '\n' ∉ t.dashes := by
  refine newline_not_mem_line fun cell hcell hmem => ?_
  obtain ⟨width, _, rfl⟩ := List.mem_map.1 hcell
  cases List.eq_of_mem_replicate hmem

theorem newline_not_mem_rowLine (t : TruthTable) (style : Style) (row : Row) : '\n' ∉ t.rowLine style row := by
  refine newline_not_mem_line fun cell hcell hmem => ?_
  obtain ⟨b, _, rfl⟩ := List.mem_map.1 hcell
  have hblank : isBlank (style.mark b) = true := List.mem_singleton.1 hmem ▸ by decide
  rw [isBlank_mark] at hblank
  cases hblank

theorem widths_eq (t : TruthTable) : t.widths = t.front.map String.length ++ [t.expression.length] := by
  have hlength : List.length ∘ String.toList = String.length := funext fun _ => String.length_toList
  rw [widths, columns, List.map_map, hlength, List.map_append, List.map_singleton]
  rfl

theorem marks_eq (style : Style) (names steps : List String) (row : Row) :
    row.marks style names steps =
      ((row.frontEntries names steps).map fun b => [style.mark b]) ++ [[style.mark row.result]] := by
  rw [Row.marks, Row.entries, List.map_append, List.map_singleton]
  rfl

theorem length_frontEntries (names steps : List String) (row : Row) :
    (row.frontEntries names steps).length = names.length + steps.length := by
  simp [Row.frontEntries]

/-- The lines of the printed text: those of the headings, the dashes, and one for each row. -/
theorem pieces_printed (t : TruthTable) (style : Style) :
    Text.pieces '\n' (['\n'].intercalate (t.printed style)) =
      Text.pieces '\n' t.heading ++ t.dashes :: t.rows.map (t.rowLine style) := by
  have hsingle : ∀ l ∈ t.dashes :: t.rows.map (t.rowLine style), Text.pieces '\n' l = [l] := by
    intro l hl
    rcases List.mem_cons.1 hl with rfl | hl
    · exact Text.pieces_of_not_mem (newline_not_mem_dashes t)
    · obtain ⟨row, _, rfl⟩ := List.mem_map.1 hl
      exact Text.pieces_of_not_mem (newline_not_mem_rowLine t style row)
  rw [printed_eq, Text.pieces_intercalate (by simp), List.flatMap_cons, List.flatMap_congr hsingle,
    List.flatMap_singleton']

end Sentential.TruthTable
