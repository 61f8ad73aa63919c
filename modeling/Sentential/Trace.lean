import Sentential.Request
import Sentential.Log

/-!
# The log of a request

While a request is answered, the log notes the postfix form of the expression and of every
step, the size of the circuit, and a summary at the end. A request that is refused leaves
one warning, after the note on its postfix form if it got that far.
-/

namespace Sentential

/-- The note on the postfix form of a text. -/
def postfixEntry (source : String) (ordered : List Token) : Log.Entry :=
  ⟨.debug, "proplogic.parser",
    "postfix for " ++ Text.quoted source ++ ": " ++ " ".intercalate (ordered.map (·.value))⟩

/-- The note on the postfix form of a text that has one. -/
def postfixEntries (source : String) (declared : List String) : List Log.Entry :=
  match postfixOf source declared with
  | .ok (_, ordered) => [postfixEntry source ordered]
  | .error _ => []

namespace Evaluation

/-- The note on the size of the circuit. -/
def circuitEntry (e : Evaluation) : Log.Entry :=
  ⟨.debug, "proplogic.gates",
    "built " ++ toString e.circuit.gates.length ++ " gates for " ++ e.parsed.formula.text⟩

/-- The summary of an answer. -/
def summaryEntry (e : Evaluation) : Log.Entry :=
  ⟨.debug, "proplogic.engine",
    e.parsed.source ++ " over " ++ ",".intercalate e.table.names ++ ": " ++ toString e.table.rows.length ++
      " rows, " ++ e.verdict.name ++ ", " ++ toString e.circuit.gates.length ++ " gates"⟩

/-- The log of a request that is answered. -/
def trace (e : Evaluation) : List Log.Entry :=
  postfixEntry e.parsed.source e.parsed.postfixTokens ::
    e.table.steps.flatMap (postfixEntries · e.table.names) ++ [e.circuitEntry, e.summaryEntry]

end Evaluation

namespace Request

/-- The warning that a request is refused. -/
def rejectedEntry (r : Request) (f : Fault) : Log.Entry :=
  ⟨.warning, "proplogic.engine", "rejected " ++ Text.quoted r.expression ++ ": " ++ f.line⟩

/-- The notes on a request that is refused, up to the fault. -/
def attemptEntries (r : Request) (settings : Settings) : List Log.Entry :=
  match Variables.validate r.names settings.maxVariables with
  | .ok names => postfixEntries (Text.trimmed r.expression) names
  | .error _ => []

/-- The log of a request. -/
def trace (r : Request) (settings : Settings) : List Log.Entry :=
  match r.evaluate settings with
  | .ok e => e.trace
  | .error (.fault f) => r.attemptEntries settings ++ [r.rejectedEntry f]
  | .error _ => r.attemptEntries settings

end Request

end Sentential
