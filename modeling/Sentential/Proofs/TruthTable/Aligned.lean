import Sentential.Proofs.TruthTable.Line

/-!
# Alignment of a printed table

The bars of a printed table stand in columns: in a line that is `Aligned`, the bar behind the first `k` columns
begins where their headings and the bars between them end. If the table is `Presentable`, the line of
headings, the dashes and the rows align. The line of headings has the headings as they are
(`Presentable.heading_eq`), so it is one line of the text only if no heading breaks it
(`Presentable.count_heading`).
-/

namespace Sentential.TruthTable

open Text (isBlank)

/-- Where the `k`-th bar begins: behind `k` headings and the bars between them. -/
def barOffset (columns : List String) (k : Nat) : Nat := ((columns.take k).map String.length).sum + 3 * (k - 1)

/-- The line has a cell for each column, and its bars begin where the headings put them: in front of the `k`-th
bar are the cells of `k` columns, and behind it the cells of the others. -/
def Aligned (columns : List String) (line : List Char) : Prop :=
  ∃ cells : List (List Char), cells.length = columns.length ∧ line = separator.intercalate cells ∧
    ∀ k, 0 < k → k < columns.length →
      line.take (barOffset columns k) = separator.intercalate (cells.take k) ∧
      line.drop (barOffset columns k) = separator ++ separator.intercalate (cells.drop k)

variable {t : TruthTable} {style : Style} {front : List String} {expression : String}

/-- Cells as long as the headings in front of the last one align, whatever the last cell is. -/
theorem aligned_of_lengths {cells : List (List Char)} (h : cells.map List.length = front.map String.length)
    (last : List Char) : Aligned (front ++ [expression]) (separator.intercalate (cells ++ [last])) := by
  have hlength : cells.length = front.length := by simpa using congrArg List.length h
  refine ⟨cells ++ [last], by simp [hlength], rfl, fun k hpos hlt => ?_⟩
  have hle : k ≤ cells.length := by
    rw [List.length_append, List.length_singleton] at hlt
    omega
  have htake : (cells ++ [last]).take k ≠ [] := by
    rw [List.take_append_of_le_length hle, ← List.length_pos_iff, List.length_take]
    omega
  have hdrop : (cells ++ [last]).drop k ≠ [] := by
    rw [List.drop_append_of_le_length hle]
    exact List.concat_ne_nil _ _
  have hsplit := Text.intercalate_append separator htake hdrop
  rw [List.take_append_drop, List.append_assoc] at hsplit
  -- The bars of the other headings and of the first cells have the same lengths, so both parts end together.
  have hoffset : (separator.intercalate ((cells ++ [last]).take k)).length = barOffset (front ++ [expression]) k := by
    rw [Text.length_intercalate, List.take_append_of_le_length hle, barOffset,
      List.take_append_of_le_length (hlength ▸ hle), List.map_take, List.map_take, h, List.length_take,
      Nat.min_eq_left hle]
    rfl
  rw [hsplit, ← hoffset, List.take_left, List.drop_left]
  exact ⟨rfl, rfl⟩

/-- The cells have the columns' headings above them, and none is longer than its heading. -/
def CellsFit (columns : List String) (cells : List (List Char)) : Prop :=
  List.Forall₂ (fun (column : String) (cell : List Char) => cell.length ≤ column.length) columns cells

/-- Cells that fit take the widths of their headings. -/
theorem CellsFit.map_length {cells : List (List Char)} (h : CellsFit front cells) :
    (List.zipWith center (front.map String.length) cells).map List.length = front.map String.length := by
  induction h with
  | nil => rfl
  | cons hle _ ih => simp [length_center, ih, hle]

/-- A line aligns if the cells in front of the last one fit and the last one is not blank. -/
theorem aligned_line {cells : List (List Char)} {cell : List Char} {c : Char} (hfit : CellsFit t.front cells)
    (hc : c ∈ cell) (hblank : isBlank c = false) : Aligned t.columns (line t.widths (cells ++ [cell])) := by
  have hlength : (t.front.map String.length).length = cells.length := by rw [List.length_map, hfit.length_eq]
  rw [widths_eq, line_concat hlength hc hblank]
  exact aligned_of_lengths hfit.map_length _

/-- No heading of the table is empty, and the last one is not blank and ends without blanks. -/
structure Presentable (t : TruthTable) : Prop where
  length_pos : ∀ column ∈ t.front, 0 < column.length
  exists_not_blank : ∃ c ∈ t.expression.toList, isBlank c = false
  trimEnd_eq : Text.trimEnd t.expression.toList = t.expression.toList

theorem headings_eq (t : TruthTable) :
    t.columns.map String.toList = t.front.map String.toList ++ [t.expression.toList] := by
  rw [columns, List.map_append, List.map_singleton]
  rfl

namespace Presentable

theorem aligned_heading (h : t.Presentable) : Aligned t.columns t.heading := by
  obtain ⟨c, hc, hblank⟩ := h.exists_not_blank
  have hfit : CellsFit t.front (t.front.map String.toList) := by
    rw [CellsFit, List.forall₂_map_right_iff, List.forall₂_same]
    intro column _
    exact Nat.le_of_eq String.length_toList
  rw [heading, headings_eq]
  exact aligned_line hfit hc hblank

theorem aligned_dashes (h : t.Presentable) : Aligned t.columns t.dashes := by
  obtain ⟨c, hc, _⟩ := h.exists_not_blank
  have hfit : CellsFit t.front (t.front.map fun column => List.replicate column.length '-') := by
    rw [CellsFit, List.forall₂_map_right_iff, List.forall₂_same]
    intro column _
    exact Nat.le_of_eq List.length_replicate
  have hdash : '-' ∈ List.replicate t.expression.length '-' := by
    have hpos : 0 < t.expression.length := String.length_toList ▸ List.length_pos_of_mem hc
    exact List.mem_replicate.2 ⟨Nat.ne_of_gt hpos, rfl⟩
  have hcells : (t.widths.map fun width => List.replicate width '-') =
      (t.front.map fun column => List.replicate column.length '-') ++ [List.replicate t.expression.length '-'] := by
    rw [widths_eq, List.map_append, List.map_map, List.map_singleton]
    rfl
  rw [dashes, hcells]
  exact aligned_line hfit hdash (by decide)

theorem aligned_rowLine (h : t.Presentable) (style : Style) (row : Row) :
    Aligned t.columns (t.rowLine style row) := by
  have hfit : CellsFit t.front ((row.frontEntries t.names t.steps).map fun b => [style.mark b]) := by
    rw [CellsFit, List.forall₂_map_right_iff, List.forall₂_iff_get]
    refine ⟨by simp [front, length_frontEntries], fun k hk _ => ?_⟩
    exact h.length_pos _ (List.getElem_mem hk)
  rw [rowLine, marks_eq]
  exact aligned_line hfit (List.mem_singleton_self _) (isBlank_mark style row.result)

/-- The line of the headings is the headings between bars. -/
theorem heading_eq (h : t.Presentable) : t.heading = separator.intercalate (t.columns.map String.toList) := by
  obtain ⟨c, hc, hblank⟩ := h.exists_not_blank
  have hplaces : List.zipWith center (t.front.map String.length) (t.front.map String.toList) =
      t.front.map String.toList := by
    refine List.ext_getElem (by simp) fun k _ _ => ?_
    simp only [List.getElem_zipWith, List.getElem_map, ← String.length_toList, center_length]
  rw [heading, headings_eq, widths_eq, line_concat (by simp) hc hblank, hplaces, ← String.length_toList, center_length,
    h.trimEnd_eq]

/-- The line of the headings breaks where a heading does. -/
theorem count_heading (h : t.Presentable) :
    t.heading.count '\n' = (t.columns.map fun column => column.toList.count '\n').sum := by
  have hseparator : separator.countP (· == '\n') = 0 := by decide
  rw [h.heading_eq, List.count, Text.countP_intercalate, hseparator, Nat.zero_mul, Nat.add_zero, List.map_map]
  rfl

theorem newline_not_mem_heading (h : t.Presentable) (hline : ∀ column ∈ t.columns, '\n' ∉ column.toList) :
    '\n' ∉ t.heading := by
  rw [h.heading_eq]
  intro hmem
  rcases Text.mem_intercalate hmem with hbar | ⟨cs, hcs, hmem⟩
  · revert hbar
    decide
  · obtain ⟨column, hcolumn, rfl⟩ := List.mem_map.1 hcs
    exact hline column hcolumn hmem

end Presentable

end Sentential.TruthTable
