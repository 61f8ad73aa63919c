import Sentential.Text.Pieces

/-!
# Paths

A path names a file by the directories on the way to it. Empty steps and steps that stay in
place are dropped when a path is read, so that its text shows neither; a step to the
parent directory is kept, because what it means depends on the directories.
-/

namespace Sentential

/-- A path: its root, which is empty for a relative path, and its steps. -/
structure Path where
  root : String
  steps : List String
  deriving DecidableEq, Repr

namespace Path

/-- The step to the parent directory. -/
def parent : String := ".."

/-- The root of an absolute path. Exactly two slashes in front are a root of their own. -/
def rootOf : List Char → String
  | '/' :: '/' :: '/' :: _ => "/"
  | '/' :: '/' :: _ => "//"
  | '/' :: _ => "/"
  | _ => ""

/-- The path that a text names. -/
def ofText (s : String) : Path :=
  let steps := (Text.pieces '/' s.toList).map String.ofList
  ⟨rootOf s.toList, steps.filter fun step => step != "" && step != "."⟩

/-- The text of a path; the empty relative path is the directory itself. -/
def text (p : Path) : String :=
  if p.root = "" ∧ p.steps = [] then "." else p.root ++ "/".intercalate p.steps

end Path

end Sentential
