import Sentential.Proofs.Bracket.Spans
import Sentential.Proofs.Parsed
import Sentential.Proofs.Spelling
import Sentential.Proofs.Steps.Labels

/-!
# Reading the steps

Once an expression has been read, so can all its steps (`exists_build`). A bracketed group of the
typed text is normalized and cut into tokens as it was inside the expression, up to the positions
(`Parsed.GroupAt`), and between matching parentheses of a formula stands a formula (`exists_parse_group`).
A declared name and its negation are read as such. The steps are then the candidates for a label, each with
what it is read as (`Steps.mem_build_iff`).
-/

namespace Sentential

open Grammar (Derives)

variable {source : String} {names : List String} {p : Parsed}

/-- A bracketed group of an expression that has been read, and its tokens among those of the whole. -/
structure Parsed.GroupAt (p : Parsed) (source : String) (names : List String) (span : Nat × Nat) where
  /-- The typed text in front of the group, between its brackets and behind it, and the brackets. -/
  (before inner after : List Char)
  (left right : Char)
  /-- The tokens of these texts and of the brackets. -/
  (front inside back : List Token)
  (opening closing : Token)
  /-- Where the text between the brackets and the text behind them begin after normalization. -/
  (posInner posAfter : Nat)
  source_eq : source.toList = before ++ left :: (inner ++ right :: after)
  span_eq : span = (before.length, before.length + inner.length + 1)
  isOpening_left : Bracket.isOpening left = true
  isClosing_right : Bracket.isClosing right = true
  scans_before : Token.Scans names false 0 (Spelling.normalize before) front
  scans_inner : Token.Scans names false posInner (Spelling.normalize inner) inside
  scans_after : Token.Scans names false posAfter (Spelling.normalize after) back
  tokens_eq : p.tokens = front ++ opening :: (inside ++ closing :: back)
  kind_opening : opening.kind = .opening
  kind_closing : closing.kind = .closing
  depth_inside : Bracket.depth 0 (Bracket.sidesOfTokens inside) = some 0

namespace Parsed.Stages

/-- The typed text of a readable expression balances, not only its normalized form. -/
theorem balanced_source (h : p.Stages source names) : Bracket.firstUnbalanced source.toList = none := by
  rw [Bracket.firstUnbalanced_eq_none_iff, ← Spelling.sides_normalize,
    ← Bracket.firstUnbalanced_eq_none_iff]
  exact h.balanced

/-- Every bracketed group of a readable expression has its tokens among those of the whole. -/
theorem exists_groupAt (h : p.Stages source names) {span : Nat × Nat}
    (hspan : span ∈ Bracket.spans source.toList) : Nonempty (p.GroupAt source names span) := by
  obtain ⟨before, inner, after, o, c, hsource, ho, hc, hinner, hplaces⟩ :=
    Bracket.exists_group_of_mem_spans hspan
  have hopen : Token.symbolKind? '(' = some .opening := rfl
  have hclose : Token.symbolKind? ')' = some .closing := rfl
  have hscans := h.scans
  rw [hsource, Spelling.normalize_group ho hc, Token.Scans.append_symbol_iff hopen] at hscans
  obtain ⟨us, ts, hus, hbehind, htokens⟩ := hscans
  obtain ⟨vs, ws, hvs, hws, rfl⟩ := (Token.Scans.append_symbol_iff hclose).1 hbehind
  have hdepth : Bracket.depth 0 (Bracket.sidesOfTokens vs) = some 0 := by
    rw [hvs.sides_eq, Spelling.sides_normalize]
    exact hinner.depth_eq
  exact ⟨⟨before, inner, after, o, c, us, vs, ws, _, _, _, _, hsource, hplaces, ho, hc, hus, hvs, hws, htokens,
    rfl, rfl, hdepth⟩⟩

end Parsed.Stages

namespace Parsed.GroupAt

variable {span : Nat × Nat}

/-- The text of a group gives the tokens of the group at other positions, so it is read as their formula. -/
theorem exists_parse_slice (G : p.GroupAt source names span) {g : Formula} (hg : Derives .equivalence G.inside g) :
    ∃ q, parse (String.ofList (Bracket.slice source.toList span)) names = .ok q ∧ q.formula = g := by
  have hopen : Token.symbolKind? '(' = some .opening := rfl
  have hclose : Token.symbolKind? ')' = some .closing := rfl
  obtain ⟨vs, hvs, hlexemes⟩ := G.scans_inner.move 1
  have hslice : Bracket.slice source.toList span = G.left :: (G.inner ++ [G.right]) := by
    have happend := Bracket.slice_append G.before G.inner G.after G.left G.right
    rwa [← G.source_eq, ← G.span_eq] at happend
  have hnormalize : Spelling.normalize (String.ofList (G.left :: (G.inner ++ [G.right]))).toList =
      '(' :: (Spelling.normalize G.inner ++ [')']) := by
    rw [String.toList_ofList]
    exact @Spelling.normalize_group [] G.inner [] _ _ G.isOpening_left G.isClosing_right
  have hend := (Token.Scans.append_symbol_iff hclose).2 ⟨vs, [], hvs, .nil, rfl⟩
  have hchar : Text.isBlank G.left = false := by
    rcases Bracket.isOpening_iff.1 G.isOpening_left with h | h <;> rw [h] <;> decide
  have hblank : Text.isBlankText (String.ofList (G.left :: (G.inner ++ [G.right]))) = false :=
    Text.isBlankText_of_toList String.toList_ofList hchar
  have hgroup : Token.Scans names false 0 ('(' :: (Spelling.normalize G.inner ++ [')'])) _ := .symbol hopen hend
  rw [← hnormalize] at hgroup
  rw [hslice]
  exact exists_parse_of_scans hblank hgroup
    ((Derives.group rfl (hg.congr hlexemes) rfl).loosen (Nat.zero_le _))

end Parsed.GroupAt

/-- A bracketed group of a readable expression is readable, and its formula is a part of the whole. -/
theorem Parsed.Stages.exists_parse_group (h : p.Stages source names) {span : Nat × Nat}
    (hspan : span ∈ Bracket.spans source.toList) :
    ∃ q, parse (String.ofList (Bracket.slice source.toList span)) names = .ok q ∧
      q.formula.Subformula p.formula := by
  obtain ⟨G⟩ := h.exists_groupAt hspan
  obtain ⟨g, hg, hsub, _⟩ := h.derives.of_group G.tokens_eq G.kind_opening G.kind_closing G.depth_inside
  obtain ⟨q, hq, rfl⟩ := G.exists_parse_slice hg
  exact ⟨q, hq, hsub⟩

/-- A word is not blank and stands for itself. -/
theorem Text.normalize_of_isWord {name : String} (hw : isWord name = true) :
    isBlankText name = false ∧ Spelling.normalize name.toList = name.toList := by
  obtain ⟨hne, hall⟩ := isWord_iff.1 hw
  obtain ⟨c, cs, hcs⟩ := List.exists_cons_of_ne_nil hne
  have hc : isLetter c = true := hall c (by simp [hcs])
  exact ⟨isBlankText_of_toList hcs (isBlank_of_isLetter hc), Spelling.normalize_of_isLetter hall⟩

/-- A declared word is read as the variable. -/
theorem exists_parse_name {name : String} (hw : Text.isWord name = true) (hn : name ∈ names) :
    ∃ q, parse name names = .ok q ∧ q.formula = .var name := by
  obtain ⟨hblank, hnormalize⟩ := Text.normalize_of_isWord hw
  have hscans : Token.Scans names false 0 name.toList [⟨.name, name, 0⟩] := .of_isWord hw hn
  have hderives : Derives .primary [⟨.name, name, 0⟩] (.var name) := .name rfl
  refine exists_parse_of_scans hblank ?_ (hderives.loosen (by decide))
  rwa [hnormalize]

/-- The negation of a declared word is read as the negation of the variable. -/
theorem exists_parse_negated {name : String} (hw : Text.isWord name = true) (hn : name ∈ names) :
    ∃ q, parse (Steps.negated name) names = .ok q ∧ q.formula = .not (.var name) := by
  obtain ⟨hblank, hnormalize⟩ := Text.normalize_of_isWord hw
  have hscans : Token.Scans names false 1 name.toList [⟨.name, name, 1⟩] := .of_isWord hw hn
  have hderives : Derives .primary [⟨.name, name, 1⟩] (.var name) := .name rfl
  have htext : (Steps.negated name).toList = '¬' :: name.toList := by
    simp [Steps.negated, Operator.text, Operator.symbol]
  have hnot : Token.symbolKind? '¬' = some .operator := by decide
  have hneg : Derives .negation [⟨.operator, "¬", 0⟩, ⟨.name, name, 1⟩] (.not (.var name)) :=
    .not ⟨rfl, Operator.ofSymbol?_text .not⟩ (.ofPrimary hderives)
  refine exists_parse_of_scans ?_ ?_ (hneg.loosen (by decide))
  · exact Text.isBlankText_of_toList htext (by decide)
  · rw [htext, Spelling.normalize_cons (by decide), hnormalize]
    exact .symbol hnot hscans

namespace Steps

/-- A label becomes a step exactly if it can be read. -/
theorem step_eq_ok_iff {label : String} {step : Step} :
    (do return ⟨label, (← parse label names).formula⟩ : Outcome Step) = .ok step ↔
      ∃ q, parse label names = .ok q ∧ ⟨label, q.formula⟩ = step := by
  rw [Outcome.bind_eq_ok_iff]
  exact exists_congr fun q => and_congr_right fun _ => ⟨Except.ok.inj, congrArg Except.ok⟩

/-- Every step of a readable expression can be read. -/
theorem exists_build (h : parse source names = .ok p) (hw : ∀ name ∈ names, Text.isWord name = true) :
    ∃ steps, build source names = .ok steps := by
  have hstages := parse_eq_ok_iff.1 h
  obtain ⟨ls, hls⟩ : ∃ ls, labels source names = .ok ls :=
    ⟨_, labels_eq_ok_iff.2 ⟨hstages.balanced_source, rfl⟩⟩
  have hread : ∀ label ∈ ls, ∃ q, parse label names = .ok q := by
    intro label hlabel
    rcases ((mem_labels_iff hls).1 hlabel).1 with ⟨span, hspan, rfl⟩ | ⟨name, hn, rfl | rfl⟩
    · obtain ⟨q, hq, _⟩ := hstages.exists_parse_group hspan
      exact ⟨q, hq⟩
    · obtain ⟨q, hq, _⟩ := exists_parse_name (hw label hn) hn
      exact ⟨q, hq⟩
    · obtain ⟨q, hq, _⟩ := exists_parse_negated (hw name hn) hn
      exact ⟨q, hq⟩
  unfold build
  rw [hls]
  refine Outcome.exists_mapM_eq_ok fun label hlabel => ?_
  obtain ⟨q, hq⟩ := hread label hlabel
  exact ⟨_, step_eq_ok_iff.2 ⟨q, hq, rfl⟩⟩

/-- Steps that a table of the expression can show: labels that differ from each other and from the
expression, and formulas over the names. -/
structure Fit (expression : String) (names : List String) (steps : List Step) : Prop where
  nodup : (steps.map (·.label)).Nodup
  not_mem : expression ∉ steps.map (·.label)
  declared : ∀ step ∈ steps, ∀ name ∈ step.formula.atoms, name ∈ names

theorem Fit.nil (expression : String) (names : List String) : Fit expression names [] :=
  ⟨List.nodup_nil, by simp, by simp⟩

/-- The steps are the candidates other than the expression, each with the formula that its label is read as. -/
theorem mem_build_iff {steps : List Step} (h : build source names = .ok steps) {step : Step} :
    step ∈ steps ↔ (IsCandidate source names step.label ∧ step.label ≠ Text.trimmed source) ∧
      ∃ q, parse step.label names = .ok q ∧ q.formula = step.formula := by
  unfold build at h
  obtain ⟨ls, hls, hsteps⟩ := Outcome.bind_eq_ok_iff.1 h
  rw [← mem_labels_iff hls]
  constructor
  · intro hmem
    obtain ⟨label, hlabel, hstep⟩ := Outcome.exists_of_mem_mapM hsteps hmem
    obtain ⟨q, hq, rfl⟩ := step_eq_ok_iff.1 hstep
    exact ⟨hlabel, q, hq, rfl⟩
  · rintro ⟨hlabel, q, hq, hformula⟩
    obtain ⟨step', hmem, hstep⟩ := Outcome.exists_mem_of_mapM hsteps hlabel
    obtain ⟨q', hq', rfl⟩ := step_eq_ok_iff.1 hstep
    cases hq.symm.trans hq'
    rwa [hformula] at hmem

/-- The steps stand in the order of their labels. -/
theorem labels_of_build {steps : List Step} (h : build source names = .ok steps) :
    labels source names = .ok (steps.map (·.label)) := by
  unfold build at h
  obtain ⟨ls, hls, hsteps⟩ := Outcome.bind_eq_ok_iff.1 h
  have hlabels : ls = steps.map (·.label) := by
    rw [← List.forall₂_eq_eq_eq, List.forall₂_map_right_iff]
    refine (Outcome.mapM_eq_ok_iff.1 hsteps).imp fun label step hstep => ?_
    obtain ⟨q, _, rfl⟩ := step_eq_ok_iff.1 hstep
    rfl
  rwa [← hlabels]

/-- The steps that are built for a trimmed expression fit its table. -/
theorem fit_of_build {steps : List Step} (h : build source names = .ok steps)
    (htrim : Text.trimmed source = source) : Fit source names steps := by
  refine ⟨nodup_labels (labels_of_build h), fun hmem => ?_, fun step hmem name hn => ?_⟩
  · obtain ⟨step, hstep, hlabel⟩ := List.mem_map.1 hmem
    exact ((mem_build_iff h).1 hstep).1.2 (hlabel.trans htrim.symm)
  · obtain ⟨_, q, hq, hformula⟩ := (mem_build_iff h).1 hmem
    rw [← hformula] at hn
    exact (parse_eq_ok_iff.1 hq).mem_declared hn

end Steps

end Sentential
