import Sentential.Proofs.Postfix.Language

/-!
# Chains of conditionals and biconditionals

The conditional and the biconditional have the same precedence and group to different sides.
`Formula.chain` is the formula of a chain in which they are mixed in any order: the
biconditionals cut the chain into segments and group the segments from the left, and within a
segment the conditionals group to the right. So the biconditional is always the looser one.

`accepts_exactly_derived` states what is accepted as an infix formula: the tokens from which the
grammar derives one, and then the one formula it derives.
-/

namespace Sentential

/-- The segments of a chain that starts with `f`, cut at the biconditionals. -/
def Formula.segments (f : Formula) : List (Connective × Formula) → Formula × List Formula
  | [] => (f, [])
  | (.iff, g) :: rest => (f, (g.segments rest).1 :: (g.segments rest).2)
  | (c, g) :: rest => (.binary c f (g.segments rest).1, (g.segments rest).2)

/-- The formula of a chain of conditionals and biconditionals that starts with `f`. -/
def Formula.chain (f : Formula) (links : List (Connective × Formula)) : Formula :=
  (f.segments links).2.foldl (.binary .iff) (f.segments links).1

namespace Grammar

/-- A link of a chain: the token of a conditional or biconditional with the operand after it. -/
structure Link where
  op : Connective
  sign : Token
  tokens : List Token
  formula : Formula
  loose : op = .implies ∨ op = .iff
  stands : IsOperator (.binary op) sign
  derives : Derives .disjunction tokens formula

/-- The tokens of a chain whose first operand has the tokens `ls`. -/
def chainTokens (ls : List Token) (links : List Link) : List Token :=
  ls ++ links.flatMap fun k => k.sign :: k.tokens

/-- The connectives and operands of the links. -/
def chainLinks (links : List Link) : List (Connective × Formula) := links.map fun k => (k.op, k.formula)

/-- The first segment of a chain is a conditional, and the others join any biconditional on the left. -/
theorem exists_segments (links : List Link) {ls : List Token} {f : Formula}
    (h : Derives .disjunction ls f) : ∃ first later, chainTokens ls links = first ++ later ∧
      Derives .conditional first (f.segments (chainLinks links)).1 ∧
      ∀ before g, Derives .equivalence before g → Derives .equivalence (before ++ later)
        ((f.segments (chainLinks links)).2.foldl (.binary .iff) g) := by
  induction links generalizing ls f with
  | nil =>
    refine ⟨ls, [], rfl, .ofDisjunction h, ?_⟩
    intro before g hg
    simpa [chainLinks, Formula.segments] using hg
  | cons link rest ih =>
    obtain ⟨op, sign, tokens, formula, loose, stands, derives⟩ := link
    obtain ⟨first, later, heq, hfirst, hlater⟩ := ih derives
    have heq : chainTokens ls (⟨op, sign, tokens, formula, loose, stands, derives⟩ :: rest) =
        ls ++ sign :: (first ++ later) := by rw [← heq]; rfl
    rcases loose with rfl | rfl
    · exact ⟨ls ++ sign :: first, later, by simpa using heq, .implies h stands hfirst, hlater⟩
    · refine ⟨ls, sign :: (first ++ later), heq, .ofDisjunction h, ?_⟩
      intro before g hg
      have := hlater (before ++ sign :: first) _ (.iff hg stands hfirst)
      simpa [chainLinks, Formula.segments] using this

/-- The grammar derives the formula of a chain. -/
theorem derives_chain (links : List Link) {ls : List Token} {f : Formula}
    (h : Derives .disjunction ls f) :
    Derives .equivalence (chainTokens ls links) (f.chain (chainLinks links)) := by
  obtain ⟨first, later, heq, hfirst, hlater⟩ := exists_segments links h
  rw [heq]
  exact hlater first _ (.ofConditional hfirst)

/-- Canonical tokens form a formula exactly if the grammar derives it. All others are refused by a
fault, the formula is unique, and in a chain the biconditional is looser than the conditional. -/
theorem accepts_exactly_derived (ts : List Token) (hts : ∀ t ∈ ts, t.Canonical) :
    (∀ f, (toPostfix ts >>= Formula.ofPostfix) = .ok f ↔ Derives .equivalence ts f) ∧
    ((¬∃ f, Derives .equivalence ts f) →
      ∃ fault : Fault, (toPostfix ts >>= Formula.ofPostfix) = .error fault) ∧
    (∀ f g, Derives .equivalence ts f → Derives .equivalence ts g → f = g) ∧
    (∀ ls f (links : List Link), ts = chainTokens ls links → Derives .disjunction ls f →
      (toPostfix ts >>= Formula.ofPostfix) = .ok (f.chain (chainLinks links))) := by
  refine ⟨fun f => Formula.ofInfix_eq_ok_iff, ?_, ?_, ?_⟩
  · intro hnone
    cases h : Formula.ofInfix ts with
    | ok f => exact absurd ⟨f, Formula.ofInfix_eq_ok_iff.1 h⟩ hnone
    | error e =>
      obtain ⟨fault, rfl⟩ := Formula.faults_ofInfix hts e h
      exact ⟨fault, h⟩
  · intro f g hf hg
    have hf := Formula.ofInfix_eq_ok_iff.2 hf
    have hg := Formula.ofInfix_eq_ok_iff.2 hg
    exact Except.ok.inj (hf.symm.trans hg)
  · rintro ls f links rfl hf
    exact Formula.ofInfix_eq_ok_iff.2 (derives_chain links hf)

/-- The chain `p → q ↔ ¬r → p`, read by the theorem. -/
theorem accepts_exactly_derived_chain :
    let ts : List Token := [⟨.name, "p", 0⟩, ⟨.operator, "→", 1⟩, ⟨.name, "q", 2⟩, ⟨.operator, "↔", 3⟩,
      ⟨.operator, "¬", 4⟩, ⟨.name, "r", 5⟩, ⟨.operator, "→", 6⟩, ⟨.name, "p", 7⟩]
    (∀ t ∈ ts, t.Canonical) ∧ Derives .equivalence ts (.binary .iff
      (.binary .implies (.var "p") (.var "q")) (.binary .implies (.not (.var "r")) (.var "p"))) := by
  intro ts
  have hts : ∀ t ∈ ts, t.Canonical := by decide
  exact ⟨hts, ((accepts_exactly_derived ts hts).1 _).1 rfl⟩

end Grammar

end Sentential
