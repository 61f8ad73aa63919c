import Sentential.Parse
import Sentential.Proofs.Formula.Valuation
import Sentential.Proofs.Grammar.Group
import Sentential.Proofs.Postfix.Language
import Sentential.Proofs.Token.Scan

/-!
# Stages of reading a formula

A text is read exactly if it is not blank, its normalized form is balanced and scans to tokens, and
the grammar derives a formula from these (`parse_eq_ok_iff`); the balance follows from the rest
(`exists_parse_of_scans`). The variables of the formula are then declared
(`Parsed.Stages.mem_declared`). What is not read is refused by a fault (`faults_parse`).
-/

namespace Sentential

open Grammar (Derives)

/-- What every stage of reading a text has produced. -/
structure Parsed.Stages (source : String) (declared : List String) (p : Parsed) : Prop where
  notBlank : Text.isBlankText source = false
  balanced : Bracket.firstUnbalanced (Spelling.normalize source.toList) = none
  scans : Token.Scans declared false 0 (Spelling.normalize source.toList) p.tokens
  ordered : toPostfix p.tokens = .ok p.postfixTokens
  derives : Derives .equivalence p.tokens p.formula
  source_eq : p.source = source
  normalized_eq : p.normalized = Spelling.normalized source

/-- A text has tokens exactly if it is balanced and scans to them. -/
theorem Token.tokenize_eq_ok_iff {cs : List Char} {declared : List String} {ts : List Token} :
    tokenize cs declared = .ok ts ↔
      Bracket.firstUnbalanced cs = none ∧ Scans declared false 0 cs ts := by
  unfold tokenize checkBalanced
  rw [← scan_eq_ok_iff, Outcome.bind_eq_ok_iff]
  cases Bracket.firstUnbalanced cs <;> simp

/-- A text has tokens and a postfix order exactly if it is not blank and both stages succeed. -/
theorem postfixOf_eq_ok_iff {source : String} {declared : List String} {ts post : List Token} :
    postfixOf source declared = .ok (ts, post) ↔ Text.isBlankText source = false ∧
      Token.tokenize (Spelling.normalize source.toList) declared = .ok ts ∧ toPostfix ts = .ok post := by
  have hsplit : postfixOf source declared = if Text.isBlankText source then
      .error (.fault .emptyExpression) else do
        let tokens ← Token.tokenize (Spelling.normalize source.toList) declared
        let ordered ← toPostfix tokens
        return (tokens, ordered) := by
    unfold postfixOf
    split <;> rfl
  rw [hsplit]
  cases Text.isBlankText source with
  | true => simp
  | false =>
    simp only [Bool.false_eq_true, if_false, Outcome.bind_eq_ok_iff, true_and]
    constructor
    · rintro ⟨ts', hts, post', hpost, h⟩
      cases h
      exact ⟨hts, hpost⟩
    · rintro ⟨hts, hpost⟩
      exact ⟨ts, hts, post, hpost, rfl⟩

/-- A text is read exactly if every stage succeeds. -/
theorem parse_eq_ok_iff {source : String} {declared : List String} {p : Parsed} :
    parse source declared = .ok p ↔ p.Stages source declared := by
  unfold parse
  constructor
  · intro h
    obtain ⟨⟨ts, post⟩, hpost, h⟩ := Outcome.bind_eq_ok_iff.1 h
    obtain ⟨f, hf, h⟩ := Outcome.bind_eq_ok_iff.1 h
    cases h
    obtain ⟨hblank, htokens, hordered⟩ := postfixOf_eq_ok_iff.1 hpost
    obtain ⟨hbalanced, hscans⟩ := Token.tokenize_eq_ok_iff.1 htokens
    have hinfix : Formula.ofInfix ts = .ok f := Outcome.bind_eq_ok_iff.2 ⟨post, hordered, hf⟩
    exact ⟨hblank, hbalanced, hscans, hordered, Formula.ofInfix_eq_ok_iff.1 hinfix, rfl, rfl⟩
  · rintro ⟨hblank, hbalanced, hscans, hordered, hderives, hsource, hnormalized⟩
    obtain ⟨post, hpost, hf⟩ := Outcome.bind_eq_ok_iff.1 (Formula.ofInfix_eq_ok_iff.2 hderives)
    cases hordered.symm.trans hpost
    have htokens := Token.tokenize_eq_ok_iff.2 ⟨hbalanced, hscans⟩
    have hfirst := postfixOf_eq_ok_iff.2 ⟨hblank, htokens, hordered⟩
    refine Outcome.bind_eq_ok_iff.2 ⟨_, hfirst, Outcome.bind_eq_ok_iff.2 ⟨_, hf, ?_⟩⟩
    rw [← hnormalized, ← hsource]
    rfl

theorem Token.faults_tokenize (cs : List Char) (declared : List String) :
    Outcome.Faults (tokenize cs declared) := by
  unfold tokenize checkBalanced
  refine .bind ?_ fun _ _ => faults_scan declared false 0 cs
  split
  next => exact .error _
  next => exact .ok _

/-- A text is refused by a fault, never by another failure: the tokens of a text carry known operators,
and what is in postfix order assembles to a formula. -/
theorem faults_parse (source : String) (declared : List String) : Outcome.Faults (parse source declared) := by
  unfold parse
  refine .bind ?_ fun (ts, post) hpost => ?_
  · unfold postfixOf
    split
    next => exact .error _
    next =>
      refine .bind (Token.faults_tokenize _ declared) fun ts hts => ?_
      have hscans := (Token.tokenize_eq_ok_iff.1 hts).2
      exact .bind (faults_toPostfix fun t ht => hscans.canonical_of_mem ht) fun _ _ => .ok _
  · obtain ⟨f, _, hf⟩ := exists_derives_of_toPostfix (postfixOf_eq_ok_iff.1 hpost).2.2
    have hassembled : Outcome.Faults (Formula.ofPostfix post) := hf ▸ .ok f
    exact .bind hassembled fun _ _ => .ok _

/-- A text that scans to the tokens of a formula is read as this formula: its brackets balance because
those of the formula do. -/
theorem exists_parse_of_scans {source : String} {declared : List String} {ts : List Token} {f : Formula}
    (hblank : Text.isBlankText source = false)
    (hs : Token.Scans declared false 0 (Spelling.normalize source.toList) ts)
    (hd : Derives .equivalence ts f) : ∃ p, parse source declared = .ok p ∧ p.formula = f := by
  obtain ⟨post, hpost, _⟩ := exists_toPostfix_of_derives hd
  have hbalanced : Bracket.firstUnbalanced (Spelling.normalize source.toList) = none := by
    rw [Bracket.firstUnbalanced_eq_none_iff, ← hs.sides_eq]
    exact hd.depth_eq
  exact ⟨⟨source, _, ts, post, f⟩, parse_eq_ok_iff.2 ⟨hblank, hbalanced, hs, hpost, hd, rfl, rfl⟩, rfl⟩

namespace Parsed.Stages

variable {source : String} {declared : List String} {p : Parsed}

/-- The variables of the formula are declared. -/
theorem mem_declared (h : p.Stages source declared) {name : String} (hn : name ∈ p.formula.atoms) :
    name ∈ declared := by
  obtain ⟨t, ht, hk, rfl⟩ := h.derives.mem_leaves_iff.1 (Formula.mem_atoms.1 hn)
  exact h.scans.declared_of_mem ht hk

/-- What is read over some names is read over more names in the same way. -/
theorem mono {more : List String} (h : p.Stages source declared) (hsub : ∀ name ∈ declared, name ∈ more) :
    p.Stages source more :=
  { h with scans := h.scans.mono hsub }

end Parsed.Stages

end Sentential
