import Sentential.Cli.Run
import Sentential.Proofs.Circuit.Structure
import Sentential.Proofs.Report.Reading
import Sentential.Proofs.Steps.Neutral
import Sentential.Proofs.TruthTable.Printed
import Sentential.Yaml.Document

/-!
# Commands about one expression

A table, a verdict and a circuit ask for the same evaluation, with steps or without, and show different parts
of the answer. What they show can always be printed: a table because its rows have all their cells, a
report because the circuit has levels. So all three are carried out for the same expressions, and where
one is refused, all are, with the same message (`commands_agree`). A report of a refusal holds one object,
`Fault.errorObject`, as a reader of the output finds it.
-/

namespace Sentential

variable {settings : Settings} {e : Evaluation} {f : Fault}

/-! ## Printing cannot fail -/

/-- The circuit of a formula has a report. -/
theorem Formula.exists_report_circuit (g : Formula) : ∃ report, g.circuit.report = .ok report := by
  obtain ⟨levels, hlevels, _⟩ := Circuit.exists_levels_ofTree g.gateTree
  rw [g.circuit_eq_ofTree]
  exact ⟨_, Outcome.bind_eq_ok_iff.2 ⟨levels, hlevels, rfl⟩⟩

namespace Evaluation.Stages

variable {r : Request}

/-- The circuit of an answer has a report. -/
theorem exists_circuit_report (h : e.Stages r settings) : ∃ report, e.circuit.report = .ok report := by
  rw [h.circuit_eq]
  exact e.parsed.formula.exists_report_circuit

/-- An answer has a report. -/
theorem exists_report (h : e.Stages r settings) : ∃ report, e.report = .ok report := by
  obtain ⟨circuit, hcircuit⟩ := h.exists_circuit_report
  exact ⟨_, Outcome.bind_eq_ok_iff.2 ⟨circuit, hcircuit, rfl⟩⟩

/-- The table of an answer is printed in every style. -/
theorem exists_render (h : e.Stages r settings) (style : Style) : ∃ text, e.table.render style.name = .ok text := by
  obtain ⟨steps, _, htable⟩ := h.exists_filled
  rw [htable]
  exact ⟨_, TruthTable.render_eq_ok fun row hrow => TruthTable.Row.fills_of_mem_filled hrow⟩

end Evaluation.Stages

/-- What a report of the fault holds: its category and message, and its position and the offending text where there
are any. -/
def Fault.errorObject (f : Fault) : Report :=
  .record [("error", .record [
    ("kind", .text f.kind.label),
    ("message", .text f.message),
    ("position", (f.position.map Report.int).getD .null),
    ("token", (f.token.map Report.text).getD .null)])]

namespace Cli

/-! ## Replies -/

/-- Output is read as the report that it prints. -/
theorem read?_dump (r : Report) : Report.read? (dump r) = some r.sorted := by
  have hdump : dump r = r.print ++ String.ofList ['\n'] := by simp [dump, ofLines]
  rw [hdump]
  exact Report.read?_print_append r rfl

/-- The report of a fault holds its object. -/
theorem sorted_report_fault (f : Fault) : (Report.record [("error", f.report)]).sorted = f.errorObject := by
  have hposition : (Report.int? f.position).sorted = (f.position.map Report.int).getD .null := by
    cases f.position <;> rfl
  have htoken : (Report.text? f.token).sorted = (f.token.map Report.text).getD .null := by
    cases f.token <;> rfl
  simp [Report.sorted, Report.sortedFields, Fault.report, Fault.errorObject, hposition, htoken, List.mergeSort,
    List.MergeSort.Internal.splitInTwo]

/-- The reply to a query that is refused. Without a report there is no output, and the message is an error. A report
holds the object for the fault and nothing else, and there is no error. -/
structure Reply.Refuses (reply : Reply) (json : Bool) (f : Fault) : Prop where
  exit_eq : reply.exit = exitFault
  output_eq : reply.output = if json then dump (.record [("error", f.report)]) else ""
  read_output : json = true → Report.read? reply.output = some f.errorObject
  error_eq : reply.error = if json then none else some f.message

/-- The reply to a query that is answered. -/
structure Reply.Answers (reply : Reply) : Prop where
  exit_eq : reply.exit = exitDone
  error_eq : reply.error = none

/-- The message of a fault goes to the error channel, behind the log. -/
theorem Reply.Refuses.errorOutput_eq {reply : Reply} (h : reply.Refuses false f) :
    reply.errorOutput = ofLines (reply.log.map Log.Entry.line ++ ["Error: " ++ f.message]) := by
  rw [errorOutput, h.error_eq]
  rfl

variable {q : Query} {showSteps : Option Bool} {report : Evaluation → Outcome Report}
  {text : Evaluation → Outcome String}

/-- A query whose request is refused is refused, whatever it would have shown. -/
theorem Query.exists_reply_of_fault (h : (q.request showSteps).evaluate settings = .error (.fault f)) :
    ∃ reply, q.reply settings showSteps report text = .ok reply ∧ reply.Refuses q.json f := by
  simp only [reply, h]
  cases hjson : q.json with
  | false => exact ⟨_, rfl, rfl, rfl, nofun, rfl⟩
  | true => exact ⟨_, rfl, rfl, rfl, fun _ => (read?_dump _).trans (congrArg some (sorted_report_fault f)), rfl⟩

/-- A query whose request is answered is answered if the answer can be shown. -/
theorem Query.exists_reply_of_answer (h : (q.request showSteps).evaluate settings = .ok e)
    (hreport : ∃ r, report e = .ok r) {s : String} (htext : text e = .ok s) :
    ∃ reply, q.reply settings showSteps report text = .ok reply ∧ reply.Answers ∧
      (q.json = false → reply.output = s) := by
  obtain ⟨r, hr⟩ := hreport
  simp only [reply, answer, h]
  cases hjson : q.json with
  | false =>
    simp only [htext]
    exact ⟨_, rfl, ⟨rfl, rfl⟩, fun _ => rfl⟩
  | true =>
    simp only [hr]
    exact ⟨_, rfl, ⟨rfl, rfl⟩, nofun⟩

/-! ## Commands -/

/-- The query of a command that evaluates an expression. -/
def Command.query? : Command → Option Query
  | table q _ _ => some q
  | classify q => some q
  | gates q => some q
  | normalize _ => none

/-- The output of a command shows the verdict where the command shows one: on a line of its own
below a table, and alone for the verdict. -/
def Command.ShowsVerdict (v : Verdict) (output : String) : Command → Prop
  | table .. => ∃ lines simplified, output = ofLines [lines, "", "Expression type: " ++ v.label,
      "Without conditionals: " ++ simplified]
  | classify _ => output = ofLines [v.label]
  | _ => True

variable {c : Command}

/-- A command is refused if its request is, with steps and without. -/
theorem Command.exists_run_of_fault (hq : c.query? = some q)
    (h : ∀ showSteps, (q.request showSteps).evaluate settings = .error (.fault f)) :
    ∃ reply, c.run settings = .ok reply ∧ reply.Refuses q.json f := by
  cases c with
  | table _ steps _ =>
    cases hq
    exact Query.exists_reply_of_fault (h _)
  | classify _ =>
    cases hq
    exact Query.exists_reply_of_fault (h _)
  | gates _ =>
    cases hq
    exact Query.exists_reply_of_fault (h _)
  | normalize _ => cases hq

/-- The circuit of an answered request is shown. -/
theorem Command.exists_run_gates (h : (q.request (some false)).evaluate settings = .ok e) :
    ∃ reply, (Command.gates q).run settings = .ok reply ∧ reply.Answers ∧
      (q.json = false → reply.output = circuitText e) := by
  have hreport : ∃ r, circuitReport e = .ok r := by
    obtain ⟨circuit, hcircuit⟩ := (Request.evaluate_eq_ok_iff.1 h).exists_circuit_report
    exact ⟨_, Outcome.bind_eq_ok_iff.2 ⟨circuit, hcircuit, rfl⟩⟩
  exact Query.exists_reply_of_answer h hreport rfl

/-- A command is answered if its request has answers with this verdict, with steps and without. -/
theorem Command.exists_run_of_answers (hq : c.query? = some q) {v : Verdict}
    (h : ∀ showSteps, ∃ e, (q.request showSteps).evaluate settings = .ok e ∧ e.verdict = v) :
    ∃ reply, c.run settings = .ok reply ∧ reply.Answers ∧ (q.json = false → c.ShowsVerdict v reply.output) := by
  cases c with
  | table _ steps style =>
    cases hq
    obtain ⟨e, he, rfl⟩ := h (if steps then some true else none)
    have hstages := Request.evaluate_eq_ok_iff.1 he
    obtain ⟨lines, hlines⟩ := hstages.exists_render (style.getD settings.style)
    have htext : tableText (style.getD settings.style) e = .ok _ := Outcome.bind_eq_ok_iff.2 ⟨lines, hlines, rfl⟩
    obtain ⟨reply, hreply, hanswers, houtput⟩ := Query.exists_reply_of_answer he hstages.exists_report htext
    exact ⟨reply, hreply, hanswers, fun hjson => ⟨lines, e.simplified.text, houtput hjson⟩⟩
  | classify _ =>
    cases hq
    obtain ⟨e, he, rfl⟩ := h (some false)
    exact Query.exists_reply_of_answer he ⟨_, rfl⟩ rfl
  | gates _ =>
    cases hq
    obtain ⟨e, he, rfl⟩ := h (some false)
    obtain ⟨reply, hreply, hanswers, _⟩ := exists_run_gates he
    exact ⟨reply, hreply, hanswers, fun _ => trivial⟩
  | normalize _ => cases hq

/-- An invocation whose settings load replies what its command does, with a log of its own. -/
theorem Invocation.exists_run_of_load {i : Invocation} {read : String → Option Value} {w : Settings.World}
    {reply : Reply} (hload : Settings.load read w i.config = .ok settings)
    (h : i.command.run settings = .ok reply) : ∃ log, i.run read w = .ok { reply with log := log } := by
  simp only [run, hload, h]
  exact ⟨_, rfl⟩

/-- The commands about an expression agree. If the request without steps is answered, then every command
that asks for the expression over these names, under these settings, is carried out, and a table shows the
verdict that the verdict alone shows. If the request is refused, then every such command is refused: the
exit code is that of a fault, a report holds the fault and nothing else, and without a report there is no
output and the message of the fault goes to the error channel. -/
theorem commands_agree (expression names : String) (settings : Settings) :
    (∃ e, (⟨expression, Variables.ofText names, some false⟩ : Request).evaluate settings = .ok e ∧
      ∀ (i : Invocation) (json : Bool) (read : String → Option Value) (w : Settings.World),
        i.command.query? = some ⟨expression, names, json⟩ → Settings.load read w i.config = .ok settings →
          ∃ reply, i.run read w = .ok reply ∧ reply.Answers ∧
            (json = false → i.command.ShowsVerdict e.verdict reply.output)) ∨
    (∃ f : Fault,
      (⟨expression, Variables.ofText names, some false⟩ : Request).evaluate settings = .error (.fault f) ∧
      ∀ (i : Invocation) (json : Bool) (read : String → Option Value) (w : Settings.World),
        i.command.query? = some ⟨expression, names, json⟩ → Settings.load read w i.config = .ok settings →
          ∃ reply, i.run read w = .ok reply ∧ reply.Refuses json f ∧
            (json = false →
              reply.errorOutput = ofLines (reply.log.map Log.Entry.line ++ ["Error: " ++ f.message]))) := by
  rcases Request.refused_or_read expression (Variables.ofText names) settings with ⟨f, hf⟩ | hread
  · refine .inr ⟨f, hf _, fun i json read w hq hload => ?_⟩
    obtain ⟨reply, hreply, hrefuses⟩ := Command.exists_run_of_fault hq hf
    obtain ⟨log, hrun⟩ := Invocation.exists_run_of_load hload hreply
    have hlogged : Reply.Refuses { reply with log := log } json f :=
      ⟨hrefuses.exit_eq, hrefuses.output_eq, hrefuses.read_output, hrefuses.error_eq⟩
    refine ⟨_, hrun, hlogged, fun hjson => ?_⟩
    subst hjson
    exact hlogged.errorOutput_eq
  · obtain ⟨hblank, hvalid, p, hparse⟩ := hread
    obtain ⟨v, hv⟩ := TruthTable.exists_verdict p.formula (Text.trimmed expression) (Variables.ofText names) []
    have hanswers : ∀ showSteps, ∃ e,
        (⟨expression, Variables.ofText names, showSteps⟩ : Request).evaluate settings = .ok e ∧ e.verdict = v := by
      intro showSteps
      obtain ⟨_, _, _, he⟩ :=
        Request.evaluate_eq_ok_of_parse ⟨expression, Variables.ofText names, showSteps⟩ hblank hvalid hparse hv
      exact ⟨_, he, rfl⟩
    obtain ⟨e, he, hverdict⟩ := hanswers (some false)
    refine .inl ⟨e, he, fun i json read w hq hload => ?_⟩
    obtain ⟨reply, hreply, hdone, hshows⟩ := Command.exists_run_of_answers hq hanswers
    obtain ⟨log, hrun⟩ := Invocation.exists_run_of_load hload hreply
    exact ⟨_, hrun, ⟨hdone.exit_eq, hdone.error_eq⟩, hverdict ▸ hshows⟩

/-- In a world without settings, `p &` is refused with one message, as a table with steps in a report and as a verdict
without one. As a table with steps and as a verdict, `p | ~p` is always true. -/
theorem commands_agree_unset :
    let w : Settings.World := ⟨fun _ => none, none, none, .shipped⟩
    let table (expression : String) (json : Bool) : Invocation :=
      ⟨none, false, false, .table ⟨expression, "p", json⟩ true none⟩
    let classify (expression : String) : Invocation := ⟨none, false, false, .classify ⟨expression, "p", false⟩⟩
    let message := "expression ends with \x27∧\x27 at position 2; an operand is missing"
    Settings.load Yaml.read w none = .ok { } ∧
      (∃ reply, (table "p &" true).run Yaml.read w = .ok reply ∧ reply.exit = 1 ∧ reply.error = none ∧
        Report.read? reply.output = some (.record [("error", .record [("kind", .text "MalformedExpression"),
          ("message", .text message), ("position", .int 2), ("token", .text "∧")])])) ∧
      (∃ reply, (classify "p &").run Yaml.read w = .ok reply ∧ reply.exit = 1 ∧ reply.error = some message ∧
        reply.output = "") ∧
      (∃ reply lines simplified, (table "p | ~p" false).run Yaml.read w = .ok reply ∧ reply.exit = 0 ∧
        reply.output = ofLines [lines, "", "Expression type: Tautology (always true)",
          "Without conditionals: " ++ simplified]) ∧
      ∃ reply, (classify "p | ~p").run Yaml.read w = .ok reply ∧ reply.exit = 0 ∧
        reply.output = ofLines ["Tautology (always true)"] := by
  intro w table classify message
  have hload : Settings.load Yaml.read w none = .ok { } := Outcome.toOption_eq_some_iff.1 (by decide +kernel)
  have hfails : ((⟨"p &", Variables.ofText "p", some false⟩ : Request).evaluate { }).fault? =
      some (.endsEarly ⟨.operator, "∧", 2⟩) := by decide +kernel
  have hverdict : ((⟨"p | ~p", Variables.ofText "p", some false⟩ : Request).evaluate { }).toOption.map (·.verdict) =
      some .tautology := by decide +kernel
  refine ⟨hload, ?_⟩
  rcases commands_agree "p &" "p" { } with ⟨e, he, -⟩ | ⟨f, hf, hrefused⟩
  · rw [he] at hfails
    cases hfails
  rcases commands_agree "p | ~p" "p" { } with ⟨e, he, hanswered⟩ | ⟨f, hf, -⟩
  · have hfault : f = .endsEarly ⟨.operator, "∧", 2⟩ := by
      rw [hf] at hfails
      exact Option.some.inj hfails
    have hmessage : f.message = message := by
      rw [hfault]
      decide +kernel
    have hobject : f.errorObject = .record [("error", .record [("kind", .text "MalformedExpression"),
        ("message", .text message), ("position", .int 2), ("token", .text "∧")])] := by
      rw [Fault.errorObject, hmessage, hfault]
      rfl
    have hverdict : e.verdict = .tautology := by
      rw [he] at hverdict
      exact Option.some.inj hverdict
    obtain ⟨r₁, hrun₁, hr₁, -⟩ := hrefused (table "p &" true) true Yaml.read w rfl hload
    obtain ⟨r₂, hrun₂, hr₂, -⟩ := hrefused (classify "p &") false Yaml.read w rfl hload
    obtain ⟨r₃, hrun₃, hr₃, hshows₃⟩ := hanswered (table "p | ~p" false) false Yaml.read w rfl hload
    obtain ⟨r₄, hrun₄, hr₄, hshows₄⟩ := hanswered (classify "p | ~p") false Yaml.read w rfl hload
    rw [hverdict] at hshows₃ hshows₄
    obtain ⟨lines, simplified, htable⟩ := hshows₃ rfl
    exact ⟨⟨r₁, hrun₁, hr₁.exit_eq, hr₁.error_eq, (hr₁.read_output rfl).trans (congrArg some hobject)⟩,
      ⟨r₂, hrun₂, hr₂.exit_eq, hr₂.error_eq.trans (congrArg some hmessage), hr₂.output_eq⟩,
      ⟨r₃, lines, simplified, hrun₃, hr₃.exit_eq, htable⟩, ⟨r₄, hrun₄, hr₄.exit_eq, hshows₄ rfl⟩⟩
  · rw [hf] at hverdict
    cases hverdict

end Cli

end Sentential
