import Sentential.Settings.Load

/-!
# A directory of files

A directory holds files and directories, each under the names on the way to it. A path is
followed name by name: every name before the last must be a directory, and the step to the
parent directory leads out of the directory itself when it is taken at the top. Outside there
is nothing to be found.
-/

namespace Sentential

/-- The files and directories of a directory, each with the names on the way to it. -/
abbrev Files := List (List String × Settings.Entry)

namespace Files

/-- What stands at a place; the top is a directory. -/
def at? (files : Files) (place : List String) : Option Settings.Entry :=
  if place.isEmpty then some .directory else files.lookup place

/-- One step up or down from a place; nothing stands for the outside. -/
def move : Option (List String) → String → Option (Option (List String))
  | none, step => if step = Path.parent then some none else none
  | some place, step =>
    if step = Path.parent then some (if place.isEmpty then none else some place.dropLast)
    else some (some (place ++ [step]))

/-- What is found by following steps from a place. -/
def follow (files : Files) : Option (List String) → List String → Option Settings.Entry
  | none, [] => some .directory
  | some place, [] => files.at? place
  | none, step :: steps => (move none step).bind fun p => follow files p steps
  | some place, step :: steps =>
    match files.at? place with
    | some .directory => (move (some place) step).bind fun p => follow files p steps
    | _ => none

/-- What is found at a path. -/
def find? (files : Files) (p : Path) : Option Settings.Entry :=
  if p.root = "" then files.follow (some []) p.steps
  else if p.steps.isEmpty then some .directory
  else none

/-- The files with directories along the steps from a place, and the place where the steps lead. -/
def makeWay (files : Files) (place : List String) : List String → Option (Files × List String)
  | [] => some (files, place)
  | step :: steps => do
    let some next ← move (some place) step | none
    match files.at? next with
    | some .directory => makeWay files next steps
    | none => makeWay (Record.put files next .directory) next steps
    | some (.file _) => none

/-- The files with a file at a path. The directories on the way are made. -/
def write (files : Files) (p : Path) (text : String) : Outcome Files :=
  match files.makeWay [] p.steps.dropLast, p.steps.getLast? with
  | some (files, place), some name =>
    match move (some place) name with
    | some (some target) =>
      match files.at? target with
      | some .directory => .error (.isDirectory p.text)
      | _ => .ok (Record.put files target (.file text))
    | _ => .error (.isDirectory p.text)
  | none, _ => .error (.notDirectory p.text)
  | _, none => .error (.isDirectory p.text)

/-- The place where the steps lead from a place. -/
def placeOf (files : Files) (place : List String) : List String → Option (List String)
  | [] => some place
  | step :: steps => do
    let some next ← move (some place) step | none
    files.placeOf next steps

/-- The files without the file at a path. -/
def remove (files : Files) (p : Path) : Outcome Files :=
  match files.find? p, files.placeOf [] p.steps with
  | some (.file _), some place => .ok (files.filter (·.1 != place))
  | some .directory, _ => .error (.isDirectory p.text)
  | _, _ => .error (.missingFile p.text)

end Files

end Sentential
