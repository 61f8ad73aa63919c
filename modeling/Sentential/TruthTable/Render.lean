import Sentential.TruthTable.Basic

/-!
# Printed tables

A printed table has a line of headings, a line of dashes and a line per row. Each cell is
centred in the width of its heading, cells are joined by a bar between spaces, and blanks at
the end of a line are dropped. An output style gives the marks for true and false.
-/

namespace Sentential

/-- How truth values are written. -/
inductive Style where
  | trueFalse
  | vraiFaux
  | digits
  deriving DecidableEq, Repr

namespace Style

/-- The name under which a style is asked for. -/
def name : Style → String
  | trueFalse => "TF"
  | vraiFaux => "VF"
  | digits => "01"

/-- All styles. -/
def all : List Style := [trueFalse, vraiFaux, digits]

/-- The style with the given name. -/
def ofName? (s : String) : Option Style := all.find? (·.name == s)

@[simp] theorem ofName?_name (style : Style) : ofName? style.name = some style := by
  cases style <;> decide

/-- The mark for a truth value. -/
def mark : Style → Bool → Char
  | trueFalse, true => 'T'
  | vraiFaux, true => 'V'
  | digits, true => '1'
  | trueFalse, false => 'F'
  | vraiFaux, false => 'F'
  | digits, false => '0'

end Style

namespace TruthTable

/-- The mark for a truth value in the style of the given name. -/
def mark (styleName : String) (b : Bool) : Outcome Char :=
  match Style.ofName? styleName with
  | some style => .ok (style.mark b)
  | none => .error (.unknownStyle styleName)

/-- The text `cs` in the middle of `width` places. Of an odd number of spare places the larger part
goes to the left when `width` is odd and to the right otherwise. -/
def center (width : Nat) (cs : List Char) : List Char :=
  let spare := width - cs.length
  let left := spare / 2 + (if spare % 2 = 1 ∧ width % 2 = 1 then 1 else 0)
  List.replicate left ' ' ++ cs ++ List.replicate (spare - left) ' '

/-- The bar between two cells. -/
def separator : List Char := [' ', '|', ' ']

/-- One printed line. -/
def line (widths : List Nat) (cells : List (List Char)) : List Char :=
  Text.trimEnd (separator.intercalate (List.zipWith center widths cells))

/-- The cell of a named column in one row. -/
def cell (styleName : String) (values : List (String × Bool)) (column : String) : Outcome (List Char) :=
  match values.lookup column with
  | some b => do return [← mark styleName b]
  | none => .error (.missingCell column)

/-- The cells of one row: variables, steps, result. -/
def cells (t : TruthTable) (styleName : String) (row : Row) : Outcome (List (List Char)) := do
  let values ← t.names.mapM (cell styleName row.assignment)
  let steps ← t.steps.mapM (cell styleName row.values)
  let result ← mark styleName row.result
  return values ++ steps ++ [[result]]

/-- The lines of the printed table. -/
def lines (t : TruthTable) (styleName : String) : Outcome (List (List Char)) := do
  let body ← t.rows.mapM (t.cells styleName)
  let headings := t.columns.map String.toList
  let widths := headings.map List.length
  let dashes := widths.map fun width => List.replicate width '-'
  return line widths headings :: line widths dashes :: body.map (line widths)

/-- The printed table. -/
def render (t : TruthTable) (styleName : String) : Outcome String := do
  return String.ofList (['\n'].intercalate (← t.lines styleName))

end TruthTable

end Sentential
