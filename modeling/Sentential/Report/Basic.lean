/-!
# Reports

A report is a tree of texts, numbers and truth values, as the option for JSON output prints
it: one field or item to a line, two more blanks at each depth, the fields of a record in
the order of their names, and every character as itself except the quotation mark, the
backslash and the control characters.
-/

namespace Sentential

/-- A report. -/
inductive Report where
  | null
  | bool (b : Bool)
  | int (i : Int)
  | text (s : String)
  | list (items : List Report)
  | record (fields : List (String × Report))
  deriving Repr

namespace Report

/-- A list of texts. -/
def texts (items : List String) : Report := list (items.map text)

/-- The text or nothing. -/
def text? : Option String → Report
  | some s => text s
  | none => null

/-- The number or nothing. -/
def int? : Option Int → Report
  | some i => int i
  | none => null

/-- One character between quotation marks. -/
def escaped (c : Char) : List Char :=
  if c = '"' ∨ c = '\\' then ['\\', c]
  else if c = '\n' then ['\\', 'n']
  else if c = '\r' then ['\\', 'r']
  else if c = '\t' then ['\\', 't']
  else if c = '\x0c' then ['\\', 'f']
  else if c = '\x08' then ['\\', 'b']
  else if c.toNat < 0x20 then '\\' :: 'u' :: (Nat.toDigits 16 c.toNat).leftpad 4 '0'
  else [c]

/-- A text between quotation marks. -/
def quoted (s : String) : List Char := '"' :: s.toList.flatMap escaped ++ ['"']

/-- A new line at the given depth. -/
def newline (depth : Nat) : List Char := '\n' :: List.replicate (2 * depth) ' '

/-- The parts of a list or record between its brackets, each on a line at `depth + 1`. -/
def bracketed (depth : Nat) (opening closing : Char) (parts : List (List Char)) : List Char :=
  if parts.isEmpty then [opening, closing]
  else
    opening :: newline (depth + 1) ++ (',' :: newline (depth + 1)).intercalate parts ++ newline depth ++ [closing]

/-- The named parts in the order of their names. -/
def sortedByName (parts : List (String × List Char)) : List (String × List Char) :=
  parts.mergeSort fun a b => decide (a.1 ≤ b.1)

mutual

/-- The characters of a report at a depth. -/
def chars (depth : Nat) : Report → List Char
  | null => ['n', 'u', 'l', 'l']
  | bool true => ['t', 'r', 'u', 'e']
  | bool false => ['f', 'a', 'l', 's', 'e']
  | int i => (toString i).toList
  | text s => quoted s
  | list items => bracketed depth '[' ']' (itemChars (depth + 1) items)
  | record fields =>
    bracketed depth '{' '}' ((sortedByName (fieldChars (depth + 1) fields)).map fun (name, cs) =>
      quoted name ++ [':', ' '] ++ cs)

/-- The characters of the items of a list. -/
def itemChars (depth : Nat) : List Report → List (List Char)
  | [] => []
  | r :: rest => chars depth r :: itemChars depth rest

/-- The characters of the fields of a record, by name. -/
def fieldChars (depth : Nat) : List (String × Report) → List (String × List Char)
  | [] => []
  | (name, r) :: rest => (name, chars depth r) :: fieldChars depth rest

end

/-- The printed report. -/
def print (r : Report) : String := String.ofList (r.chars 0)

end Report

end Sentential
