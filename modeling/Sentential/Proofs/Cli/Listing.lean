import Sentential.Proofs.Circuit.Tree
import Sentential.Proofs.Cli.Agreement
import Sentential.Proofs.Report.Reading
import Sentential.Proofs.Text.Pieces

/-!
# Reading a printed circuit back

The text of a circuit names a signal without saying whether it comes from a gate or from a variable, and it shows no
connections and no levels. Still it shows the whole circuit. A name is a word and the name of a gate ends in digits, so
the label of a signal tells where the signal comes from (`Circuit.Ref.Legible.label_injective`). Labels hold letters and
digits only, so the line of a gate can be cut at its marks (`Cli.gateLine_injective`), and the lines are cut at their
ends (`Cli.ofLines_injective`). The gates and the output that are read from them determine the rest of the circuit
(`Circuit.ofTree_eq_of_gates`).
-/

namespace Sentential

/-! ## Labels -/

namespace Text

/-- The characters in front of the capital letters are no letters. -/
theorem isLetter_eq_false_of_lt {c : Char} (h : c.toNat < 0x41) : isLetter c = false := by
  rw [isLetter, if_pos (by omega)]
  exact inRanges_cons_of_lt h

theorem isLetter_of_isDigit {c : Char} (h : c.isDigit = true) : isLetter c = false := by
  apply isLetter_eq_false_of_lt
  have hnine : c.toNat ≤ '9'.toNat := (Char.isDigit_iff_toNat.1 h).2
  exact Nat.lt_of_le_of_lt hnine (by decide)

end Text

namespace Circuit

variable {ref ref' : Ref} {g g' : Gate} {c : Char}

/-- The name of a gate ends in digits and is no word. -/
theorem isWord_gateName (n : Nat) : Text.isWord (gateName n) = false := by
  obtain ⟨d, hd⟩ := List.exists_mem_of_ne_nil _ (Nat.toDigits_ne_nil (n := n) (b := 10))
  rw [← Text.toList_toString] at hd
  rw [← Bool.not_eq_true, Text.isWord_iff]
  rintro ⟨_, hletters⟩
  have hmem : d ∈ (gateName n).toList := by
    rw [gateName, String.toList_append]
    exact List.mem_append_right _ hd
  have hdigit := Text.isLetter_of_isDigit (Text.isDigit_of_mem_toString hd)
  exact absurd ((hletters d hmem).symm.trans hdigit) (by decide)

/-- The signal comes from a numbered gate, or from a variable whose name is a word. -/
def Ref.Legible (ref : Ref) : Prop := ref.Over fun name => Text.isWord name = true

/-- A label tells where the signal comes from. -/
theorem Ref.Legible.label_injective (h : ref.Legible) (h' : ref'.Legible) (heq : ref.label = ref'.label) :
    ref = ref' := by
  have hgate : ∀ {id name : String}, (Ref.gate id).Legible → (Ref.input name).Legible → id ≠ name := by
    rintro id name ⟨n, rfl⟩ hword rfl
    exact absurd ((isWord_gateName n).symm.trans hword) (by decide)
  cases ref with
  | gate id =>
    cases ref' with
    | gate id' => exact congrArg Ref.gate heq
    | input name => exact absurd heq (hgate h h')
  | input name =>
    cases ref' with
    | gate id => exact absurd heq.symm (hgate h' h)
    | input name' => exact congrArg Ref.input heq

/-- A label holds letters and digits only. -/
theorem Ref.Legible.mem_label (h : ref.Legible) (hc : c ∈ ref.label.toList) :
    Text.isLetter c = true ∨ c.isDigit = true := by
  cases ref with
  | gate id =>
    obtain ⟨n, rfl⟩ := h
    rw [Ref.label, gateName, String.toList_append, List.mem_append] at hc
    rcases hc with hc | hc
    · have hletters : ("gate".toList.all Text.isLetter) = true := by decide +kernel
      exact .inl (List.all_eq_true.1 hletters c hc)
    · exact .inr (Text.isDigit_of_mem_toString hc)
  | input name => exact .inl ((Text.isWord_iff.1 h).2 c hc)

/-- The marks of a printed circuit stand in no label. -/
theorem Ref.Legible.not_mem_label (h : ref.Legible) (hletter : Text.isLetter c = false) (hdigit : c.isDigit = false) :
    c ∉ ref.label.toList := by
  intro hc
  rcases h.mem_label hc with hc | hc
  · exact absurd (hletter.symm.trans hc) (by decide)
  · exact absurd (hdigit.symm.trans hc) (by decide)

/-- The gate has a number and legible inputs. -/
structure Gate.Legible (g : Gate) : Prop where
  id : (Ref.gate g.id).Legible
  inputs : ∀ ref ∈ g.inputs, ref.Legible
  inputs_ne_nil : g.inputs ≠ []

/-- The signals of the circuit can be told from their labels. -/
structure Legible (c : Circuit) : Prop where
  gates : ∀ g ∈ c.gates, g.Legible
  output : c.output.Legible

theorem Legible.signals {c : Circuit} (h : c.Legible) : ∀ ref ∈ c.signals, ref.Legible := by
  intro ref href
  rcases List.mem_cons.1 href with rfl | href
  · exact h.output
  · obtain ⟨g, hg, href⟩ := List.mem_flatMap.1 href
    exact (h.gates g hg).inputs ref href

end Circuit

/-- The circuit of a formula is legible if its variables are words. -/
theorem Formula.legible_circuit {f : Formula} (hwords : ∀ name ∈ f.leaves, Text.isWord name = true) :
    f.circuit.Legible := by
  rw [f.circuit_eq_ofTree]
  have hsignal : ∀ ref ∈ (Circuit.ofTree f.gateTree).signals, ref.Legible := by
    intro ref href
    refine (Circuit.Part.over_of_mem_signals href).mono fun name hn => ?_
    rw [f.names_gateTree] at hn
    exact hwords name hn
  refine ⟨fun g hg => ⟨?_, fun ref href => ?_, ?_⟩, hsignal _ List.mem_cons_self⟩
  · obtain ⟨k, _, _, hid⟩ := Circuit.exists_place hg
    exact ⟨1 + k, hid⟩
  · exact hsignal ref (List.mem_cons_of_mem _ (List.mem_flatMap.2 ⟨g, hg, href⟩))
  · have hlength := Circuit.Part.length_inputs f.proper_gateTree hg
    apply List.ne_nil_of_length_pos
    rw [hlength]
    cases g.type <;> decide

namespace Cli

open Circuit (Gate Ref gateName gateName_injective)

variable {g g' : Gate}

/-- A list is determined by its image under a function that tells its entries apart. -/
theorem eq_of_map_eq_map {α β : Type} {f : α → β} {xs ys : List α} (h : xs.map f = ys.map f)
    (hf : ∀ x ∈ xs, ∀ y ∈ ys, f x = f y → x = y) : xs = ys := by
  induction xs generalizing ys with
  | nil => exact (List.map_eq_nil_iff.1 h.symm).symm
  | cons x xs ih =>
    obtain ⟨y, ys, rfl⟩ := List.exists_cons_of_ne_nil (l := ys) (by rintro rfl; cases h)
    obtain ⟨hhead, htail⟩ := List.cons.inj h
    rw [hf x List.mem_cons_self y List.mem_cons_self hhead, ih htail fun z hz w hw =>
      hf z (List.mem_cons_of_mem _ hz) w (List.mem_cons_of_mem _ hw)]

/-! ## The line of a gate -/

theorem toList_gateLine (g : Gate) : (gateLine g).toList =
    ' ' :: ' ' :: (g.id.toList ++ ':' :: ' ' :: (g.type.name.toList ++
      '(' :: ([',', ' '].intercalate (g.inputs.map fun ref => ref.label.toList) ++ [')']))) := by
  simp [gateLine, String.toList_intercalate, Function.comp_def]

/-- The names of the kinds of gates hold no marks. -/
theorem not_mem_name {c : Char} (hc : c = '\n' ∨ c = '(') (type : GateType) : c ∉ type.name.toList := by
  rcases hc with rfl | rfl <;> cases type <;> decide

theorem name_injective {type type' : GateType} (h : type.name = type'.name) : type = type' := by
  have hself : ∀ t : GateType, GateType.ofName? t.name = some t := by
    intro t
    cases t <;> rfl
  have hsome := hself type
  rw [h, hself type'] at hsome
  exact (Option.some.inj hsome).symm

/-- The line of a gate shows the gate. -/
theorem gateLine_injective (hg : g.Legible) (hg' : g'.Legible) (h : gateLine g = gateLine g') : g = g' := by
  have hlist := congrArg String.toList h
  rw [toList_gateLine, toList_gateLine, List.cons.injEq, List.cons.injEq] at hlist
  have hcolon : ∀ {g : Gate}, g.Legible → ':' ∉ g.id.toList := fun hg =>
    hg.id.not_mem_label (by decide +kernel) (by decide)
  have hcomma : ∀ {g : Gate}, g.Legible → ∀ cs ∈ g.inputs.map fun ref => ref.label.toList, ',' ∉ cs := by
    intro g hg cs hcs
    obtain ⟨ref, href, rfl⟩ := List.mem_map.1 hcs
    exact (hg.inputs ref href).not_mem_label (by decide +kernel) (by decide)
  have hnonempty : ∀ {g : Gate}, g.Legible → (g.inputs.map fun ref => ref.label.toList) ≠ [] := fun hg => by
    simpa using hg.inputs_ne_nil
  obtain ⟨hid, hlist⟩ := Text.append_cons_inj (hcolon hg) (hcolon hg') hlist.2.2
  obtain ⟨htype, hlist⟩ :=
    Text.append_cons_inj (not_mem_name (.inr rfl) _) (not_mem_name (.inr rfl) _) (List.cons.inj hlist).2
  have hlabels := Text.intercalate_inj (hnonempty hg) (hnonempty hg') (hcomma hg) (hcomma hg')
    (List.append_cancel_right hlist)
  have hinputs : g.inputs = g'.inputs := by
    refine eq_of_map_eq_map hlabels fun ref href ref' href' heq => ?_
    exact (hg.inputs ref href).label_injective (hg'.inputs ref' href') (String.toList_inj.1 heq)
  obtain ⟨id, type, inputs⟩ := g
  obtain ⟨id', type', inputs'⟩ := g'
  rw [Gate.mk.injEq]
  exact ⟨String.toList_inj.1 hid, name_injective (String.toList_inj.1 htype), hinputs⟩

/-- The line of a gate is one line. -/
theorem newline_not_mem_gateLine (hg : g.Legible) : '\n' ∉ (gateLine g).toList := by
  have hlabel : ∀ {ref : Ref}, ref.Legible → '\n' ∉ ref.label.toList := fun h =>
    h.not_mem_label (by decide +kernel) (by decide)
  have hid : '\n' ∉ g.id.toList := hlabel hg.id
  have hinputs : '\n' ∉ [',', ' '].intercalate (g.inputs.map fun ref => ref.label.toList) := by
    intro hmem
    rcases Text.mem_intercalate hmem with hsep | ⟨cs, hcs, hc⟩
    · exact absurd hsep (by decide)
    · obtain ⟨ref, href, rfl⟩ := List.mem_map.1 hcs
      exact hlabel (hg.inputs ref href) hc
  rw [toList_gateLine]
  simp [hid, hinputs, not_mem_name (.inl rfl) g.type]

/-! ## The lines of a text -/

variable {lines lines' : List String}

/-- Lines come back when the text is cut at their ends. -/
theorem pieces_ofLines (h : ∀ l ∈ lines, '\n' ∉ l.toList) :
    Text.pieces '\n' (ofLines lines).toList = lines.map String.toList ++ [[]] := by
  induction lines with
  | nil => rfl
  | cons l lines ih =>
    have hlist : (ofLines (l :: lines)).toList = l.toList ++ '\n' :: (ofLines lines).toList := by
      simp [ofLines, String.toList_join]
    rw [hlist, Text.pieces_append_cons, Text.pieces_of_not_mem (h l List.mem_cons_self),
      ih fun l' hl' => h l' (List.mem_cons_of_mem _ hl')]
    rfl

/-- A text shows its lines. -/
theorem ofLines_injective (h : ∀ l ∈ lines, '\n' ∉ l.toList) (h' : ∀ l ∈ lines', '\n' ∉ l.toList)
    (heq : ofLines lines = ofLines lines') : lines = lines' := by
  have hpieces := pieces_ofLines h
  rw [heq, pieces_ofLines h'] at hpieces
  have hlists := List.append_cancel_right hpieces
  exact (eq_of_map_eq_map hlists fun _ _ _ _ => String.toList_inj.1).symm

/-! ## The text of a circuit -/

/-- The lines of the text of a circuit over so many declared names. -/
def circuitLines (names : Nat) (c : Circuit) : List String :=
  ["Inputs: " ++ toString names, "Outputs: 1", "Total gates: " ++ toString c.gates.length,
    "Gate detail: " ++ gateDetail c] ++ c.gates.map gateLine ++ ["Output: " ++ c.output.label]

theorem newline_not_mem_append {s t : String} (hs : '\n' ∉ s.toList) (ht : '\n' ∉ t.toList) :
    '\n' ∉ (s ++ t).toList := by
  rw [String.toList_append, List.mem_append, not_or]
  exact ⟨hs, ht⟩

theorem newline_not_mem_toString (n : Nat) : '\n' ∉ (toString n).toList :=
  fun h => absurd (Text.isDigit_of_mem_toString h) (by decide)

theorem newline_not_mem_toString_int (n : Int) : '\n' ∉ (toString n).toList := by
  cases n with
  | ofNat n => exact newline_not_mem_toString n
  | negSucc n =>
    rw [Text.toList_toString_negSucc, List.mem_cons, not_or]
    exact ⟨by decide, newline_not_mem_toString (n + 1)⟩

theorem newline_not_mem_gateDetail (c : Circuit) : '\n' ∉ (gateDetail c).toList := by
  unfold gateDetail
  split
  next => decide
  next =>
    rw [String.toList_intercalate]
    intro hmem
    rcases Text.mem_intercalate hmem with hsep | ⟨cs, hcs, hc⟩
    · exact absurd hsep (by decide)
    · obtain ⟨s, hs, rfl⟩ := List.mem_map.1 hcs
      obtain ⟨⟨type, n⟩, _, rfl⟩ := List.mem_map.1 hs
      have hname : '\n' ∉ (type.name ++ ": ").toList :=
        newline_not_mem_append (not_mem_name (.inl rfl) type) (by decide)
      exact newline_not_mem_append hname (newline_not_mem_toString_int n) hc

variable {c c' : Circuit} {m n : Nat}

theorem newline_not_mem_circuitLines (h : c.Legible) : ∀ l ∈ circuitLines n c, '\n' ∉ l.toList := by
  intro l hl
  simp only [circuitLines, List.mem_append, List.mem_cons, List.mem_map, List.not_mem_nil, or_false] at hl
  rcases hl with ((rfl | rfl | rfl | rfl) | ⟨g, hg, rfl⟩) | rfl
  · exact newline_not_mem_append (by decide) (newline_not_mem_toString n)
  · decide
  · exact newline_not_mem_append (by decide) (newline_not_mem_toString _)
  · exact newline_not_mem_append (by decide) (newline_not_mem_gateDetail c)
  · exact newline_not_mem_gateLine (h.gates g hg)
  · exact newline_not_mem_append (by decide) (h.output.not_mem_label (by decide +kernel) (by decide))

/-- The lines show the number of names, the gates and the output. -/
theorem circuitLines_injective (h : c.Legible) (h' : c'.Legible) (heq : circuitLines m c = circuitLines n c') :
    m = n ∧ c.gates = c'.gates ∧ c.output = c'.output := by
  unfold circuitLines at heq
  obtain ⟨hfront, hlast⟩ := List.append_inj' heq rfl
  obtain ⟨hhead, hlines⟩ := List.append_inj hfront rfl
  obtain ⟨hnames, _⟩ := List.cons.inj hhead
  refine ⟨?_, ?_, ?_⟩
  · have hdigits : toString m = toString n := (String.append_right_inj _).1 hnames
    exact gateName_injective (congrArg ("gate" ++ ·) hdigits)
  · exact eq_of_map_eq_map hlines fun g hg g' hg' => gateLine_injective (h.gates g hg) (h'.gates g' hg')
  · obtain ⟨houtput, _⟩ := List.cons.inj hlast
    exact h.output.label_injective h'.output ((String.append_right_inj _).1 houtput)

/-! ## Answers -/

variable {r r' : Request} {settings settings' : Settings} {e e' : Evaluation}

/-- The circuit of an answer is legible, since the declared names are words. -/
theorem legible_of_stages (h : e.Stages r settings) : e.circuit.Legible := by
  rw [h.circuit_eq]
  refine Formula.legible_circuit fun name hn => Variables.isWord_of_mem h.valid ?_
  exact (parse_eq_ok_iff.1 h.parsed).mem_declared (Formula.mem_atoms.2 hn)

/-- A formula without a gate at its output is a variable, and its text is the label of the signal. -/
theorem outputText_eq (f : Formula) : f.circuit.output.gate?.getD f.text = f.circuit.output.label := by
  by_cases hvar : ∃ name, f = .var name
  · obtain ⟨name, rfl⟩ := hvar
    exact String.ofList_toList
  · have hsize := Formula.size_gateTree_pos fun name heq => hvar ⟨name, heq⟩
    have houtput : f.circuit.output = .gate (gateName 1) := by
      rw [f.circuit_eq_ofTree]
      exact Circuit.output_ofTree hsize
    rw [houtput]
    rfl

theorem circuitText_eq (h : e.Stages r settings) :
    circuitText e = ofLines (circuitLines r.names.length e.circuit) := by
  have houtput : e.circuit.output.gate?.getD e.parsed.formula.text = e.circuit.output.label := by
    rw [h.circuit_eq]
    exact outputText_eq e.parsed.formula
  rw [circuitText, houtput, h.request_eq]
  rfl

/-- The text of a circuit loses nothing of it. The command prints it for every request that is answered, and where two
requests have the same text, they have the same circuit and as many names. A declared name is never the name of a gate,
so that one label, in the inputs or at the output, stands for one signal, of the same or of another circuit. -/
theorem listing_loses_nothing (h : r.evaluate settings = .ok e) (h' : r'.evaluate settings' = .ok e') :
    (∀ q : Query, q.json = false → q.request (some false) = r →
      ∃ reply, (Command.gates q).run settings = .ok reply ∧ reply.exit = exitDone ∧ reply.output = circuitText e) ∧
    (circuitText e = circuitText e' →
      e.circuit = e'.circuit ∧ e.circuit.levels = e'.circuit.levels ∧ r.names.length = r'.names.length) ∧
    (∀ name ∈ r.names, ∀ n, name ≠ gateName n) ∧
    ∀ ref ∈ e.circuit.signals, ∀ ref' ∈ e'.circuit.signals, ref.label = ref'.label → ref = ref' := by
  have hs := Request.evaluate_eq_ok_iff.1 h
  have hs' := Request.evaluate_eq_ok_iff.1 h'
  refine ⟨?_, fun htext => ?_, ?_, ?_⟩
  · rintro q hjson rfl
    obtain ⟨reply, hreply, hanswers, houtput⟩ := Command.exists_run_gates h
    exact ⟨reply, hreply, hanswers.exit_eq, houtput hjson⟩
  · have hl := legible_of_stages hs
    have hl' := legible_of_stages hs'
    rw [circuitText_eq hs, circuitText_eq hs'] at htext
    obtain ⟨hnames, hgates, houtput⟩ := circuitLines_injective hl hl' (ofLines_injective
      (newline_not_mem_circuitLines hl) (newline_not_mem_circuitLines hl') htext)
    rw [hs.circuit_eq, hs'.circuit_eq, Formula.circuit_eq_ofTree, Formula.circuit_eq_ofTree] at hgates houtput ⊢
    have hcircuit := Circuit.ofTree_eq_of_gates houtput hgates
    exact ⟨hcircuit, congrArg Circuit.levels hcircuit, hnames⟩
  · rintro name hn n rfl
    exact absurd ((Circuit.isWord_gateName n).symm.trans (Variables.isWord_of_mem hs.valid hn)) (by decide)
  · intro ref href ref' href' heq
    exact ((legible_of_stages hs).signals ref href).label_injective ((legible_of_stages hs').signals ref' href') heq

/-- A conditional and a disjunction of which the declared names stand in another order have the same text, and so the
same circuit. -/
theorem listing_loses_nothing_conditional :
    let lines := ["Inputs: 3", "Outputs: 1", "Total gates: 2", "Gate detail: OR: 1, NAND: 1",
      "  gate1: OR(gate2, r)", "  gate2: NAND(p, q)", "Output: gate1"]
    ∃ e e', (⟨"~(p & q) -> r", ["p", "q", "r"], some false⟩ : Request).evaluate { } = .ok e ∧
      (⟨"~{p ∧ q} + r", ["r", "q", "p"], none⟩ : Request).evaluate { } = .ok e' ∧
        circuitText e = ofLines lines ∧ circuitText e' = ofLines lines ∧ e.circuit = e'.circuit := by
  intro lines
  have hconditional : ((⟨"~(p & q) -> r", ["p", "q", "r"], some false⟩ : Request).evaluate { }).toOption.map
      circuitText = some (ofLines lines) := by
    decide +kernel
  have hdisjunction : ((⟨"~{p ∧ q} + r", ["r", "q", "p"], none⟩ : Request).evaluate { }).toOption.map
      circuitText = some (ofLines lines) := by
    decide +kernel
  obtain ⟨e, he, htext⟩ := Option.map_eq_some_iff.1 hconditional
  obtain ⟨e', he', htext'⟩ := Option.map_eq_some_iff.1 hdisjunction
  have he := Outcome.toOption_eq_some_iff.1 he
  have he' := Outcome.toOption_eq_some_iff.1 he'
  exact ⟨e, e', he, he', htext, htext', ((listing_loses_nothing he he').2.1 (htext.trans htext'.symm)).1⟩

end Cli

end Sentential
