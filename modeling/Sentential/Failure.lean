import Sentential.Fault
import Sentential.Settings.Fault

/-!
# Failures

An operation fails because a request is refused, because a configuration is refused, or
because its caller misused it: an unknown style, a missing cell, an operator outside the
table. All of them are one type, so that a statement about an operation says which of
them can arise. A configuration is refused with a message; a fault of a configuration that
has no message ends the operation without a report, as misuse does.
-/

namespace Sentential

/-- Why an operation gives no result. -/
inductive Failure where
  /-- The request is refused. -/
  | fault (f : Fault)
  /-- The configuration is at fault: it is refused, if the fault has a message. -/
  | settings (f : Settings.Fault)
  /-- No output style has this name. -/
  | unknownStyle (name : String)
  /-- A column without rows has no class. -/
  | emptyColumn
  /-- An operator of two operands at a node of one. -/
  | notUnary (op : Operator)
  /-- The negation at a node of two operands. -/
  | notBinary
  /-- A builder of circuits serves one formula only. -/
  | builderSpent
  /-- A token carries a symbol outside the operator table. -/
  | unknownOperator (symbol : String)
  /-- A circuit has no gate with this name. -/
  | unknownGate (id : String)
  /-- A row has no cell for this column. -/
  | missingCell (column : String)
  /-- A gate of a circuit feeds itself. -/
  | cyclic
  /-- A collection where a style is looked up. -/
  | styleNotScalar
  /-- Unknown keys that are not texts have no listing. -/
  | keysNotText
  /-- A setting that the constructor does not take. -/
  | unexpectedKey
  /-- A directory where a file is needed. -/
  | isDirectory (path : String)
  /-- A file where a directory is needed. -/
  | notDirectory (path : String)
  /-- There is no such file. -/
  | missingFile (path : String)
  deriving Repr

namespace Failure

instance : Coe Fault Failure := ⟨fault⟩

instance : Coe Settings.Fault Failure := ⟨settings⟩

/-- The message of a failure that has one. -/
def message? : Failure → Option String
  | fault f => some f.message
  | settings f => f.message?
  | unknownStyle name =>
    some ("unknown output style " ++ Text.quoted name ++ "; expected one of " ++ Settings.knownStyles)
  | emptyColumn => some "cannot classify an empty truth table"
  | notUnary op => some (op.name ++ " is not a unary connective")
  | notBinary => some (Operator.not.name ++ " is not a binary connective")
  | builderSpent => some "GateGraphBuilder instances are single-use"
  | _ => none

end Failure

/-- The outcome of an operation: a result or a failure. -/
abbrev Outcome := Except Failure

end Sentential
