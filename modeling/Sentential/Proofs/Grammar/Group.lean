import Sentential.Proofs.Grammar.Derivation
import Sentential.Proofs.Token.Scan

/-!
# Groups inside a formula

The parentheses of a derived token list balance (`Derives.depth_eq`), so between a parenthesis and
its partner stands a whole formula, which is a part of the derived one, and a new name may stand in its
place (`Derives.of_group`). A derivation looks at the kinds and values of tokens only, not at their
positions (`Derives.congr`).
-/

namespace Sentential.Grammar

open Sentential.Bracket (depth sidesOfTokens)

variable {l : Level} {ts : List Token} {f : Formula}

theorem IsOperator.congr {op : Operator} {t t' : Token} (h : IsOperator op t) (ht : t'.lexeme = t.lexeme) :
    IsOperator op t' := by
  simp only [Token.lexeme, Prod.mk.injEq] at ht
  simpa only [IsOperator, Token.operator?, ht] using h

/-- Derivation depends on the kinds and values of the tokens only. -/
theorem Derives.congr (h : Derives l ts f) {ts' : List Token}
    (hts : ts'.map Token.lexeme = ts.map Token.lexeme) : Derives l ts' f := by
  induction h using Derives.byLevels generalizing ts' with
  | binary _ ht _ ihl ihr =>
    rw [List.map_append, List.map_cons] at hts
    obtain ⟨ls', us, rfl, hls, hus⟩ := List.map_eq_append_iff.1 hts
    obtain ⟨t', rs', rfl, ht', hrs⟩ := List.map_eq_cons_iff.1 hus
    exact .binary (ihl hls) (ht.congr ht') (ihr hrs)
  | loosen _ hl ih => exact (ih hts).loosen hl
  | not ht _ ih =>
    obtain ⟨t', us, rfl, ht', hus⟩ := List.map_eq_cons_iff.1 hts
    exact .not (ht.congr ht') (ih hus)
  | name ht =>
    obtain ⟨t', us, rfl, ht', hus⟩ := List.map_eq_cons_iff.1 hts
    obtain rfl := List.map_eq_nil_iff.1 hus
    simp only [Token.lexeme, Prod.mk.injEq] at ht'
    rw [← ht'.2]
    exact .name (ht'.1.trans ht)
  | group ho _ hc ih =>
    rw [List.map_cons, List.map_append] at hts
    obtain ⟨o', us, rfl, ho', hus⟩ := List.map_eq_cons_iff.1 hts
    obtain ⟨inner', vs, rfl, hinner, hvs⟩ := List.map_eq_append_iff.1 hus
    obtain ⟨c', ws, rfl, hc', hws⟩ := List.map_eq_cons_iff.1 hvs
    obtain rfl := List.map_eq_nil_iff.1 hws
    simp only [Token.lexeme, Prod.mk.injEq] at ho' hc'
    exact .group (ho'.1.trans ho) (ih hinner) (hc'.1.trans hc)

/-- The parentheses of a formula balance. -/
theorem Derives.depth_eq (h : Derives l ts f) : depth 0 (sidesOfTokens ts) = some 0 := by
  induction h using Derives.byLevels with
  | binary _ ht _ ihl ihr =>
    rw [Bracket.sidesOfTokens_append, Bracket.sidesOfTokens_cons_of_plain (.inr ht.1),
      Bracket.depth_append, ihl]
    exact ihr
  | loosen _ _ ih => exact ih
  | not ht _ ih => rwa [Bracket.sidesOfTokens_cons_of_plain (.inr ht.1)]
  | name ht => rw [Bracket.sidesOfTokens_cons_of_plain (.inl ht)]; rfl
  | group ho _ hc ih =>
    rw [Bracket.sidesOfTokens_cons_of_opening ho, Bracket.sidesOfTokens_append,
      Bracket.sidesOfTokens_cons_of_closing hc, Bracket.depth, Bracket.depth_append,
      Bracket.depth_of_depth_zero ih]
    rfl

/-- A group does not reach over a token between two formulas: it lies in front of the token or
behind it. -/
theorem group_in_part {ls rs before inner after : List Token} {t o c : Token} (ht : t.kind = .operator)
    (ho : o.kind = .opening) (hc : c.kind = .closing) (hls : depth 0 (sidesOfTokens ls) = some 0)
    (hi : depth 0 (sidesOfTokens inner) = some 0)
    (h : ls ++ t :: rs = before ++ o :: (inner ++ c :: after)) :
    (∃ after', ls = before ++ o :: (inner ++ c :: after') ∧ after = after' ++ t :: rs) ∨
      ∃ before', rs = before' ++ o :: (inner ++ c :: after) ∧ before = ls ++ t :: before' := by
  have hto : t ≠ o := fun heq => by rw [heq, ho] at ht; cases ht
  have htc : t ≠ c := fun heq => by rw [heq, hc] at ht; cases ht
  rcases List.append_eq_append_iff.1 h with ⟨us, rfl, htail⟩ | ⟨us, rfl, htail⟩
  · -- The token stands in front of the group.
    cases us with
    | nil => exact absurd (List.cons.inj htail).1 hto
    | cons u us =>
      obtain ⟨rfl, hrs⟩ := List.cons.inj htail
      exact .inr ⟨us, hrs, rfl⟩
  · cases us with
    | nil => exact absurd (List.cons.inj htail).1.symm hto
    | cons u us =>
      obtain ⟨rfl, hbehind⟩ := List.cons.inj htail
      rcases List.append_eq_append_iff.1 hbehind with ⟨vs, rfl, hlast⟩ | ⟨vs, rfl, hlast⟩
      · cases vs with
        | nil => exact absurd (List.cons.inj hlast).1.symm htc
        | cons v vs =>
          obtain ⟨rfl, hafter⟩ := List.cons.inj hlast
          exact .inl ⟨vs, rfl, hafter⟩
      · -- The token would stand inside the group, and the group would be open at the end of `ls`.
        rw [Bracket.sidesOfTokens_append] at hi hls
        rw [Bracket.sidesOfTokens_cons_of_opening ho] at hls
        exact absurd hls (Bracket.depth_append_opening_ne hi)

/-- A group of a parenthesised formula is the whole of it or lies inside. -/
theorem group_eq_or_inside {ts before inner after : List Token} {o o' c c' : Token}
    (ho : o.kind = .opening) (hc : c.kind = .closing) (hts : depth 0 (sidesOfTokens ts) = some 0)
    (hi : depth 0 (sidesOfTokens inner) = some 0)
    (h : o' :: (ts ++ [c']) = before ++ o :: (inner ++ c :: after)) :
    (ts = inner ∧ before = [] ∧ after = []) ∨ ∃ before' after',
      ts = before' ++ o :: (inner ++ c :: after') ∧ before = o' :: before' ∧ after = after' ++ [c'] := by
  rcases List.eq_nil_or_concat' after with rfl | ⟨after, d, rfl⟩
  · cases before with
    | nil =>
      have heq : ts ++ [c'] = inner ++ [c] := (List.cons.inj h).2
      exact .inl ⟨(List.append_inj' heq rfl).1, rfl, rfl⟩
    | cons b before =>
      have heq : ts ++ [c'] = before ++ o :: inner ++ [c] := by simpa using (List.cons.inj h).2
      have hopen := (List.append_inj' heq rfl).1
      rw [hopen, Bracket.sidesOfTokens_append, Bracket.sidesOfTokens_cons_of_opening ho] at hts
      exact absurd hts (Bracket.depth_append_opening_ne (by rwa [List.append_nil]))
  · cases before with
    | nil =>
      have heq : ts ++ [c'] = inner ++ c :: after ++ [d] := by simpa using (List.cons.inj h).2
      have hclose := (List.append_inj' heq rfl).1
      rw [hclose, Bracket.sidesOfTokens_append, Bracket.sidesOfTokens_cons_of_closing hc,
        Bracket.depth_append_closing hi] at hts
      cases hts
    | cons b before =>
      obtain ⟨rfl, htail⟩ := List.cons.inj h
      have heq : ts ++ [c'] = before ++ o :: (inner ++ c :: after) ++ [d] := by
        simpa using htail
      obtain ⟨hinside, hlast⟩ := List.append_inj' heq rfl
      exact .inr ⟨before, after, hinside, rfl, by rw [hlast]⟩

/-- Between a parenthesis of a formula and its partner stands a formula, a part of the whole. With a
name that the whole does not have in place of the group, the tokens form a formula again, and the whole is
this one with the part in place of the name. -/
theorem Derives.of_group (h : Derives l ts f) {before inner after : List Token} {o c : Token}
    (hts : ts = before ++ o :: (inner ++ c :: after)) (ho : o.kind = .opening) (hc : c.kind = .closing)
    (hi : depth 0 (sidesOfTokens inner) = some 0) :
    ∃ g, Derives .equivalence inner g ∧ Formula.Subformula g f ∧
      ∀ t : Token, t.kind = .name → t.value ∉ f.leaves →
        ∃ f', Derives l (before ++ t :: after) f' ∧ f'.substitute t.value g = f := by
  induction h using Derives.byLevels generalizing before after with
  | @binary op _ _ _ f₁ f₂ hl ht hr ihl ihr =>
    rcases group_in_part ht.1 ho hc hl.depth_eq hi hts with ⟨after', hls, rfl⟩ | ⟨before', hrs, rfl⟩
    · obtain ⟨g, hg, hsub, hreplace⟩ := ihl hls
      refine ⟨g, hg, .left hsub, fun t hname hfresh => ?_⟩
      rw [Formula.leaves, List.mem_append, not_or] at hfresh
      obtain ⟨f', hf', heq⟩ := hreplace t hname hfresh.1
      refine ⟨.binary op f' f₂, ?_, ?_⟩
      · rw [← List.cons_append, ← List.append_assoc]
        exact .binary hf' ht hr
      · rw [Formula.substitute, heq, Formula.substitute_eq_self hfresh.2]
    · obtain ⟨g, hg, hsub, hreplace⟩ := ihr hrs
      refine ⟨g, hg, .right hsub, fun t hname hfresh => ?_⟩
      rw [Formula.leaves, List.mem_append, not_or] at hfresh
      obtain ⟨f', hf', heq⟩ := hreplace t hname hfresh.2
      refine ⟨.binary op f₁ f', ?_, ?_⟩
      · rw [List.append_assoc, List.cons_append]
        exact .binary hl ht hf'
      · rw [Formula.substitute, heq, Formula.substitute_eq_self hfresh.1]
  | loosen _ hle ih =>
    obtain ⟨g, hg, hsub, hreplace⟩ := ih hts
    refine ⟨g, hg, hsub, fun t hname hfresh => ?_⟩
    obtain ⟨f', hf', heq⟩ := hreplace t hname hfresh
    exact ⟨f', hf'.loosen hle, heq⟩
  | not ht _ ih =>
    have hnil : depth 0 (sidesOfTokens []) = some 0 := rfl
    rcases group_in_part ht.1 ho hc hnil hi hts with ⟨after', hls, _⟩ | ⟨before', hrs, rfl⟩
    · simp at hls
    · obtain ⟨g, hg, hsub, hreplace⟩ := ih hrs
      refine ⟨g, hg, .not hsub, fun t hname hfresh => ?_⟩
      obtain ⟨f', hf', heq⟩ := hreplace t hname hfresh
      exact ⟨_, .not ht hf', congrArg Formula.not heq⟩
  | name ht =>
    have hlength := congrArg List.length hts
    simp only [List.length_append, List.length_cons, List.length_nil] at hlength
    omega
  | @group _ g o' c' ho' h hc' ih =>
    rcases group_eq_or_inside ho hc h.depth_eq hi hts with ⟨rfl, rfl, rfl⟩ | ⟨before', after', hinside, rfl, rfl⟩
    · refine ⟨g, h, .refl, fun t hname _ => ⟨.var t.value, .name hname, ?_⟩⟩
      exact if_pos rfl
    · obtain ⟨g', hg', hsub, hreplace⟩ := ih hinside
      refine ⟨g', hg', hsub, fun t hname hfresh => ?_⟩
      obtain ⟨f', hf', heq⟩ := hreplace t hname hfresh
      have hparts : o' :: before' ++ t :: (after' ++ [c']) = o' :: ((before' ++ t :: after') ++ [c']) := by simp
      exact ⟨f', hparts ▸ .group ho' hf' hc', heq⟩

end Sentential.Grammar
