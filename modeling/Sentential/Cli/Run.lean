import Sentential.Cli.Arguments
import Sentential.Report.Encode
import Sentential.Settings.Load
import Sentential.Trace

/-!
# Carrying out a command

A command loads the settings, evaluates its expression, and prints the answer as text or as a
report. A fault of the request goes into the report if one was asked for, and otherwise to the
error channel; a fault of the configuration always goes to the error channel. The exit code
tells the three outcomes apart. There is no reply if settings fail to load for a cause that has
no message.
-/

namespace Sentential.Cli

/-- What a command leaves: its exit code, its output, the log, and an error message. -/
structure Reply where
  exit : Nat
  output : String
  log : List Log.Entry
  error : Option String
  deriving DecidableEq, Repr

/-- The exit code of a command that is carried out. -/
def exitDone : Nat := 0

/-- The exit code after a fault of the request. -/
def exitFault : Nat := 1

/-- The exit code after a fault of the configuration. -/
def exitSettings : Nat := 2

/-- Lines, each ended by a line feed. -/
def ofLines (lines : List String) : String := String.join (lines.map (· ++ "\n"))

/-- The report as output. -/
def dump (r : Report) : String := ofLines [r.print]

/-- The request of a query. -/
def Query.request (q : Query) (showSteps : Option Bool) : Request :=
  ⟨q.expression, Variables.ofText q.names, showSteps⟩

/-- The text of a table. -/
def tableText (style : Style) (e : Evaluation) : Outcome String := do
  return ofLines [← e.table.render style.name, "", "Expression type: " ++ e.verdict.label,
    "Without conditionals: " ++ e.simplified.text]

/-- The text of a verdict. -/
def verdictText (e : Evaluation) : String := ofLines [e.verdict.label]

/-- The report of a verdict. -/
def verdictReport (e : Evaluation) : Report :=
  .record [("expression", .text e.request.expression), ("classification", .text e.verdict.name)]

/-- The line of a gate. -/
def gateLine (g : Circuit.Gate) : String :=
  "  " ++ g.id ++ ": " ++ g.type.name ++ "(" ++ ", ".intercalate (g.inputs.map Circuit.Ref.label) ++ ")"

/-- The kinds of gates with their numbers. -/
def gateDetail (c : Circuit) : String :=
  match c.presentCounts with
  | [] => "no gates"
  | counts => ", ".intercalate (counts.map fun (t, n) => t.name ++ ": " ++ toString n)

/-- The text of a circuit. -/
def circuitText (e : Evaluation) : String :=
  ofLines (["Inputs: " ++ toString e.request.names.length, "Outputs: 1",
    "Total gates: " ++ toString e.circuit.gates.length, "Gate detail: " ++ gateDetail e.circuit] ++
    e.circuit.gates.map gateLine ++ ["Output: " ++ e.circuit.output.gate?.getD e.parsed.formula.text])

/-- The report of a circuit with its summary. -/
def circuitReport (e : Evaluation) : Outcome Report := do
  return .record [("gate_graph", ← e.circuit.report),
    ("summary", e.circuit.summary e.request.names.length)]

/-- The answer to a request, as a report or as text. -/
def answer (json : Bool) (report : Evaluation → Outcome Report) (text : Evaluation → Outcome String)
    (e : Evaluation) : Outcome String :=
  if json then dump <$> report e else text e

/-- The reply to a query: the answer, or the fault of the request. -/
def Query.reply (q : Query) (settings : Settings) (showSteps : Option Bool)
    (report : Evaluation → Outcome Report) (text : Evaluation → Outcome String) : Outcome Reply :=
  let r := q.request showSteps
  let log := r.trace settings
  match r.evaluate settings with
  | .ok e => do return ⟨exitDone, ← answer q.json report text e, log, none⟩
  | .error (.fault f) =>
    if q.json then .ok ⟨exitFault, dump (.record [("error", f.report)]), log, none⟩
    else .ok ⟨exitFault, "", log, some f.message⟩
  | .error other => .error other

/-- Carries a command out under the given settings. -/
def Command.run (settings : Settings) : Command → Outcome Reply
  | table q steps style =>
    q.reply settings (if steps then some true else none) Evaluation.report (tableText (style.getD settings.style))
  | classify q => q.reply settings (some false) (fun e => .ok (verdictReport e)) fun e => .ok (verdictText e)
  | gates q => q.reply settings (some false) circuitReport fun e => .ok (circuitText e)
  | normalize expression => .ok ⟨exitDone, ofLines [Spelling.normalized expression], [], none⟩

/-- The least important level that the log shows. -/
def Invocation.threshold (i : Invocation) : Log.Level :=
  if i.verbose then .debug else if i.quiet then .error else .warning

/-- Carries an invocation out: loads the settings, then runs the command. -/
def Invocation.run (i : Invocation) (read : String → Option Value) (w : Settings.World) : Outcome Reply :=
  let log := Settings.loadTrace read w i.config
  match Settings.load read w i.config with
  | .ok settings => do
    let reply ← i.command.run settings
    return { reply with log := Log.shown i.threshold (log ++ reply.log) }
  | .error (.settings f) =>
    match f.message? with
    | some message => .ok ⟨exitSettings, "", Log.shown i.threshold log, some message⟩
    | none => .error (.settings f)
  | .error other => .error other

/-- What goes to the error channel: the log, then the error message. -/
def Reply.errorOutput (r : Reply) : String :=
  ofLines (r.log.map Log.Entry.line ++ (r.error.map fun m => "Error: " ++ m).toList)

end Sentential.Cli
