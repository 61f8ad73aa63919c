import Sentential.Formula.Evaluation
import Sentential.Text.Blank
import Sentential.Text.Pieces

/-!
# Declared variables and their assignments

A declaration is a list of words. A word of one letter may not also occur inside another
declared word, and the ceiling on the number of names is checked last. The
assignments of `n` names are listed in canonical order: row `r` gives the name at place `i`
the value true when bit `n - 1 - i` of `r` is 0, so that the first name changes
slowest and the rows run from all true to all false.
-/

namespace Sentential.Variables

/-- The ceiling on the number of names when nothing else is said. -/
def defaultCeiling : Int := 6

/-- The first name that is no word or that stands in `seen` or earlier in the list. -/
def firstIllFormed (seen : List String) : List String → Option Fault
  | [] => none
  | name :: rest =>
    if !Text.isWord name then some (.invalidName name)
    else if name ∈ seen then some (.repeatedVariable name)
    else firstIllFormed (name :: seen) rest

/-- The name is a single letter that occurs in the different name `other`. -/
def containedIn (name other : String) : Bool :=
  match name.toList with
  | [c] => other != name && other.toList.contains c
  | _ => false

/-- The first single-letter name that occurs in another name, with the first such other. -/
def firstContained (names : List String) : Option Fault :=
  names.findSome? fun name => (names.find? (containedIn name)).map (.containedVariable name ·)

/-- Checks a declaration against a ceiling and returns its names. -/
def validate (names : List String) (ceiling : Int) : Outcome (List String) :=
  if names.isEmpty then .error (.fault .noVariables)
  else
    match firstIllFormed [] names with
    | some f => .error (.fault f)
    | none =>
      match firstContained names with
      | some f => .error (.fault f)
      | none =>
        if (names.length : Int) > ceiling then .error (.fault (.tooManyVariables names.length ceiling))
        else .ok names

/-- The names of a declaration such as `p, q, r`; blank pieces are dropped. -/
def ofText (s : String) : List String :=
  ((Text.pieces ',' s.toList).map fun piece => String.ofList (Text.trim piece)).filter (· ≠ "")

/-- The values of row `index` over `n` names: true where the bit is 0, most significant bit first. -/
def rowValues (index : Int) : Nat → List Bool
  | 0 => []
  | n + 1 => decide ((index >>> n) % 2 = 0) :: rowValues index n

/-- The assignment of row `index`. -/
def row (names : List String) (index : Nat) : Assignment := names.zip (rowValues index names.length)

/-- All assignments of the names, in canonical order. -/
def assignments (names : List String) : List Assignment :=
  (List.range (Nat.pow 2 names.length)).map (row names)

/-- All assignments of a declaration that is accepted. -/
def enumerate (names : List String) (ceiling : Int) : Outcome (List Assignment) :=
  assignments <$> validate names ceiling

end Sentential.Variables
