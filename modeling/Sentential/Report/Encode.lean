import Sentential.Circuit.Levels
import Sentential.Request
import Sentential.Report.Basic

/-!
# Reports of results

Each kind of result has one form as a report. The names of the fields are part of the
output format.
-/

namespace Sentential

/-- The report of a formula. -/
def Formula.report : Formula → Report
  | var name => .record [("type", .text "var"), ("name", .text name)]
  | not a =>
    .record [("type", .text "unary"), ("op", .text Operator.not.name), ("operand", a.report)]
  | binary op l r =>
    .record [("type", .text "binary"), ("op", .text op.name), ("left", l.report), ("right", r.report)]

/-- The report of a token. -/
def Token.report (t : Token) : Report :=
  .record [("kind", .text t.kind.label), ("value", .text t.value), ("pos", .int t.pos)]

/-- The report of named truth values. -/
def Report.ofValues (values : List (String × Bool)) : Report :=
  .record (values.map fun (name, b) => (name, .bool b))

/-- The report of one row of a truth table. -/
def TruthTable.Row.report (r : TruthTable.Row) : Report :=
  .record [("index", .int r.index), ("assignment", .ofValues r.assignment), ("values", .ofValues r.values),
    ("result", .bool r.result)]

namespace Circuit

/-- The report of a signal. -/
def Ref.report : Ref → Report
  | gate id => .record [("gate", .text id)]
  | input name => .record [("variable", .text name)]

/-- The report of a gate. -/
def Gate.report (g : Gate) : Report :=
  .record [("id", .text g.id), ("type", .text g.type.name), ("inputs", .list (g.inputs.map Ref.report))]

/-- The report of a connection. -/
def Connection.report (c : Connection) : Report :=
  .record [("from", c.source.report), ("to", .text c.target), ("slot", .text c.slot.name)]

/-- The report of counts of gates by kind. -/
def countsReport (counts : List (GateType × Int)) : Report :=
  .record (counts.map fun (t, n) => (t.name, .int n))

/-- The report of the levels of the gates. -/
def levelsReport (levels : List (String × Nat)) : Report :=
  .record (levels.map fun (id, n) => (id, .int n))

/-- The report of a circuit, which needs its levels. -/
def report (c : Circuit) : Outcome Report := do
  let levels ← c.levels
  return .record [
    ("gates", .list (c.gates.map Gate.report)),
    ("connections", .list (c.connections.map Connection.report)),
    ("output", c.output.report),
    ("output_gate_id", .text? c.output.gate?),
    ("counts_by_type", countsReport c.counts),
    ("levels", levelsReport levels)]

/-- The summary of a circuit over the given number of inputs. -/
def summary (c : Circuit) (inputs : Int) : Report :=
  .record [
    ("inputs", .int inputs),
    ("outputs", .int 1),
    ("total_gates", .int c.gates.length),
    ("gates", countsReport c.presentCounts)]

end Circuit

/-- The report of a fault. -/
def Fault.report (f : Fault) : Report :=
  .record [("kind", .text f.kind.label), ("message", .text f.message), ("token", .text? f.token),
    ("position", .int? f.position)]

/-- The report of the complete answer to a request. -/
def Evaluation.report (e : Evaluation) : Outcome Report := do
  let circuit ← e.circuit.report
  let steps := if e.showSteps then [("sub_expressions", Report.texts e.table.steps)] else []
  return .record ([
    ("expression", .text e.request.expression),
    ("normalized", .text e.parsed.normalized),
    ("variables", .texts e.request.names),
    ("tokens", .list (e.parsed.tokens.map Token.report)),
    ("postfix", .texts (e.parsed.postfixTokens.map (·.value))),
    ("ast", e.parsed.formula.report),
    ("rows", .list (e.table.rows.map TruthTable.Row.report)),
    ("classification", .text e.verdict.name),
    ("classification_label", .text e.verdict.label),
    ("simplified", .text e.simplified.text),
    ("gate_graph", circuit),
    ("gate_summary", e.circuit.summary e.request.names.length)] ++ steps)

end Sentential
