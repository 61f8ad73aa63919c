import Sentential.Proofs.Parsed.Spelling
import Sentential.Proofs.Steps.Build

/-!
# Steps are parts of the expression

What a group of an expression means does not depend on where it stands. Its formula is a part of the whole,
and with a new name in place of the group the rest is read as before, so that putting the part back in
gives the whole (`Parsed.Stages.exists_parse_replaced`). A step shows the formula that its label is read as
(`Steps.Shows`), which for a declared name and its negation is the variable and its negation.
-/

namespace Sentential

open Grammar (Derives)

variable {source : String} {names : List String} {p : Parsed}

/-- The name between two blanks. -/
def Text.spaced (name : String) : List Char := ' ' :: (name.toList ++ [' '])

/-- A word between blanks stays as it is, wherever it stands. -/
theorem Spelling.normalize_append_spaced {name : String} (hw : Text.isWord name = true) (before after : List Char) :
    normalize (before ++ (Text.spaced name ++ after)) = normalize before ++ (Text.spaced name ++ normalize after) := by
  have hblank : ' ' ∉ characters := by decide
  refine normalize_append_plain (List.cons_ne_nil _ _) fun c hc => ?_
  simp only [Text.spaced, List.mem_cons, List.mem_append, List.not_mem_nil, or_false] at hc
  rcases hc with rfl | hc | rfl
  · exact hblank
  · exact not_mem_characters_of_isLetter ((Text.isWord_iff.1 hw).2 c hc)
  · exact hblank

namespace Token.Scans

variable {declared : List String} {inRun : Bool} {xs ys : List Char} {us vs : List Token} {name : String}

/-- A declared word between blanks is one more token between those of the texts around it. -/
theorem append_spaced {pos pos' : Nat} (hxs : Scans declared inRun pos xs us) (hw : Text.isWord name = true)
    (hn : name ∈ declared) (hys : Scans declared false pos' ys vs) :
    ∃ (place : Nat) (vs' : List Token), vs'.map lexeme = vs.map lexeme ∧
      Scans declared inRun pos (xs ++ (Text.spaced name ++ ys)) (us ++ ⟨.name, name, place⟩ :: vs') := by
  have hblank : Text.isBlank ' ' = true := by decide
  have hletter : Text.isLetter ' ' = false := Text.isLetter_of_isBlank hblank
  obtain ⟨vs', hvs', hlexemes⟩ := hys.move (pos + xs.length + 1 + name.toList.length + 1)
  have hback : Scans declared false (pos + xs.length + 1 + name.toList.length) (' ' :: ys) vs' := .blank hblank hvs'
  have hword := hback.word_append hw hn (by simpa using hletter)
  have hspaced : Scans declared false (pos + xs.length) (' ' :: (name.toList ++ ' ' :: ys)) _ := .blank hblank hword
  have htext : Text.spaced name ++ ys = ' ' :: (name.toList ++ ' ' :: ys) := by simp [Text.spaced]
  refine ⟨pos + xs.length + 1, vs', hlexemes, ?_⟩
  rw [htext]
  exact hxs.append hspaced (by simpa using hletter)

end Token.Scans

/-- With a new name in place of a group, an expression is read as a formula that becomes the formula of the
whole when the one of the group is put in for the name. -/
theorem Parsed.Stages.exists_parse_replaced (h : p.Stages source names) {span : Nat × Nat}
    (hspan : span ∈ Bracket.spans source.toList) {q : Parsed}
    (hq : parse (String.ofList (Bracket.slice source.toList span)) names = .ok q) {x : String}
    (hw : Text.isWord x = true) (hx : x ∉ names) :
    ∃ p', parse (String.ofList (Bracket.replaced source.toList span (Text.spaced x))) (names ++ [x]) = .ok p' ∧
      p'.formula.substitute x q.formula = p.formula := by
  obtain ⟨G⟩ := h.exists_groupAt hspan
  obtain ⟨g, hg, _, hreplace⟩ := h.derives.of_group G.tokens_eq G.kind_opening G.kind_closing G.depth_inside
  obtain ⟨q', hq', rfl⟩ := G.exists_parse_slice hg
  cases hq.symm.trans hq'
  -- The name is new to the formula because it is not declared.
  have hfresh : x ∉ p.formula.leaves := fun hmem => hx (h.mem_declared (Formula.mem_atoms.2 hmem))
  have hmore : ∀ name ∈ names, name ∈ names ++ [x] := fun name hn => List.mem_append_left _ hn
  have hdeclared : x ∈ names ++ [x] := by simp
  obtain ⟨place, back, hlexemes, hscans⟩ :=
    (G.scans_before.mono hmore).append_spaced hw hdeclared (G.scans_after.mono hmore)
  obtain ⟨f, hf, heq⟩ := hreplace ⟨.name, x, place⟩ rfl hfresh
  have htext : Bracket.replaced source.toList span (Text.spaced x) = G.before ++ (Text.spaced x ++ G.after) := by
    have happend := Bracket.replaced_append G.before G.inner G.after (Text.spaced x) G.left G.right
    rwa [← G.source_eq, ← G.span_eq] at happend
  rw [← Spelling.normalize_append_spaced hw, ← String.toList_ofList (l := _ ++ _)] at hscans
  have hderives : Derives .equivalence (G.front ++ ⟨.name, x, place⟩ :: back) f :=
    hf.congr (by simp [hlexemes])
  have hblank := hscans.isBlankText_eq_false (by simp)
  obtain ⟨p', hp', rfl⟩ := exists_parse_of_scans hblank hscans hderives
  exact ⟨p', htext ▸ hp', heq⟩

namespace Steps

variable {steps : List Step}

/-- The label is read as the formula, and unless it is the expression itself, it is the label of a step, which
shows this formula and no other. -/
def Shows (source : String) (names : List String) (steps : List Step) (label : String) (f : Formula) : Prop :=
  (∃ q, parse label names = .ok q ∧ q.formula = f) ∧
    ∀ g, ⟨label, g⟩ ∈ steps ↔ label ≠ Text.trimmed source ∧ g = f

/-- Every candidate shows the formula that it is read as. -/
theorem shows_of_isCandidate (h : build source names = .ok steps) {label : String} {f : Formula}
    (hlabel : IsCandidate source names label) (hq : ∃ q, parse label names = .ok q ∧ q.formula = f) :
    Shows source names steps label f := by
  refine ⟨hq, fun g => ?_⟩
  obtain ⟨q, hq, rfl⟩ := hq
  rw [mem_build_iff h]
  constructor
  · rintro ⟨⟨_, hne⟩, q', hq', rfl⟩
    cases hq.symm.trans hq'
    exact ⟨hne, rfl⟩
  · rintro ⟨hne, rfl⟩
    exact ⟨⟨hlabel, hne⟩, q, hq, rfl⟩

/-- Steps are compositional. For an expression that is read over declared words, the groups go from a bracket
to its partner. Each of them is read as a part of the whole, and with any new word in place of the
group the expression is read as a formula that becomes the whole when the part is put in for the word.
The steps can be built. Each group shows its part, each declared name the variable, and each negated
name the negation of the variable. -/
theorem compositional (hp : parse source names = .ok p) (hw : ∀ name ∈ names, Text.isWord name = true) :
    groups source.toList = .ok ((Bracket.spans source.toList).map (Bracket.slice source.toList)) ∧
    ∃ steps, build source names = .ok steps ∧
      (∀ i j, (i, j) ∈ Bracket.spans source.toList → Bracket.Matched source.toList i j ∧
        ∃ q, parse (String.ofList (Bracket.slice source.toList (i, j))) names = .ok q ∧
          q.formula.Subformula p.formula ∧
          Shows source names steps (String.ofList (Bracket.slice source.toList (i, j))) q.formula ∧
          ∀ x, Text.isWord x = true → x ∉ names →
            ∃ p', parse (String.ofList (Bracket.replaced source.toList (i, j) (Text.spaced x))) (names ++ [x]) = .ok p' ∧
              p'.formula.substitute x q.formula = p.formula) ∧
      ∀ name ∈ names, Shows source names steps name (.var name) ∧
        Shows source names steps (negated name) (.not (.var name)) := by
  have hstages := parse_eq_ok_iff.1 hp
  obtain ⟨steps, hsteps⟩ := exists_build hp hw
  refine ⟨?_, steps, hsteps, fun i j hspan => ?_, fun name hn => ⟨?_, ?_⟩⟩
  · unfold groups Token.checkBalanced
    rw [hstages.balanced_source]
    rfl
  · obtain ⟨q, hq, hsub⟩ := hstages.exists_parse_group hspan
    refine ⟨Bracket.matched_of_mem_spans hspan, q, hq, hsub, ?_, fun x hword hnew => ?_⟩
    · exact shows_of_isCandidate hsteps (.inl ⟨_, hspan, rfl⟩) ⟨q, hq, rfl⟩
    · exact hstages.exists_parse_replaced hspan hq hword hnew
  · exact shows_of_isCandidate hsteps (.inr ⟨name, hn, .inl rfl⟩) (exists_parse_name (hw name hn) hn)
  · exact shows_of_isCandidate hsteps (.inr ⟨name, hn, .inr rfl⟩) (exists_parse_negated (hw name hn) hn)

/-- In `~{(p ^ q} -> p) & q` the group `(p ^ q}` is closed by a brace. With `x` in its place the
expression is read as `¬(x → p) ∧ q`. -/
theorem compositional_nested :
    let source := "~\x7b(p ^ q\x7d -> p) & q"
    let names := ["p", "q"]
    (∃ p, parse source names = .ok p) ∧ (∀ name ∈ names, Text.isWord name = true) ∧
      (2, 8) ∈ Bracket.spans source.toList ∧ Text.isWord "x" = true ∧ "x" ∉ names ∧
      ∃ p q p', parse source names = .ok p ∧ parse "(p ^ q\x7d" names = .ok q ∧
        parse "~\x7b x  -> p) & q" ["p", "q", "x"] = .ok p' ∧ p'.formula.substitute "x" q.formula = p.formula := by
  intro source names
  have hread : (parse source names).toOption.isSome = true := by decide +kernel
  have hwords : ∀ name ∈ names, Text.isWord name = true := by decide +kernel
  have hx : Text.isWord "x" = true := by decide +kernel
  have hspan : (2, 8) ∈ Bracket.spans source.toList := by decide +kernel
  have hnew : "x" ∉ names := by decide
  obtain ⟨p, hp⟩ := Option.isSome_iff_exists.1 hread
  have hparse := Outcome.toOption_eq_some_iff.1 hp
  obtain ⟨_, steps, _, hgroups, _⟩ := compositional hparse hwords
  obtain ⟨_, q, hq, _, _, hreplaced⟩ := hgroups 2 8 hspan
  obtain ⟨p', hp', heq⟩ := hreplaced "x" hx hnew
  have hgroup : String.ofList (Bracket.slice source.toList (2, 8)) = "(p ^ q\x7d" := by decide +kernel
  have hrest : String.ofList (Bracket.replaced source.toList (2, 8) (Text.spaced "x")) = "~\x7b x  -> p) & q" := by
    decide +kernel
  exact ⟨⟨p, hparse⟩, hwords, hspan, hx, hnew, p, q, p', hparse, hgroup ▸ hq, hrest ▸ hp', heq⟩

end Steps

end Sentential
