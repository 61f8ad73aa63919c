import Mathlib.Data.List.Chain
import Sentential.Proofs.Grammar.Derivation

/-!
# Neighbours in a formula

Two names never stand side by side in a formula, and neither do two connectives
(`Derives.isChain_apart`). These are the two places where tokens that are written without a blank
between them could be read as one. The proof follows the ends of a formula: it starts with a name, a
negation or an opening parenthesis, and it ends with a name or a closing parenthesis.
-/

namespace Sentential.Grammar

variable {l : Level} {ts : List Token} {t u : Token} {f : Formula}

/-- The tokens with which a formula may start. -/
def Starts (t : Token) : Prop := t.kind = .name ∨ IsOperator .not t ∨ t.kind = .opening

/-- The tokens with which a formula may end. -/
def Ends (t : Token) : Prop := t.kind = .name ∨ t.kind = .closing

/-- The tokens are not both names and not both connectives. -/
def Apart (t u : Token) : Prop :=
  (t.kind = .name → u.kind ≠ .name) ∧ ∀ c d, IsOperator (.binary c) t → ¬IsOperator (.binary d) u

/-- A token with which a formula starts is no connective. -/
theorem Starts.apart (hu : Starts u) (ht : t.kind ≠ .name) : Apart t u := by
  refine ⟨fun h => absurd h ht, fun c d _ hd => ?_⟩
  rcases hu with hname | hnot | hopen
  · cases hname.symm.trans hd.1
  · cases hnot.2.symm.trans hd.2
  · cases hopen.symm.trans hd.1

/-- A token with which a formula ends is no connective. -/
theorem Ends.apart (ht : Ends t) (hu : u.kind ≠ .name) : Apart t u := by
  refine ⟨fun _ => hu, fun c d hc => ?_⟩
  rcases ht with hname | hclose
  · cases hname.symm.trans hc.1
  · cases hclose.symm.trans hc.1

theorem Derives.exists_starts (h : Derives l ts f) : ∃ t rest, ts = t :: rest ∧ Starts t := by
  induction h using Derives.byLevels with
  | binary _ _ _ ihl _ =>
    obtain ⟨t, rest, rfl, ht⟩ := ihl
    exact ⟨t, _, List.cons_append, ht⟩
  | loosen _ _ ih => exact ih
  | not ht _ _ => exact ⟨_, _, rfl, .inr (.inl ht)⟩
  | name ht => exact ⟨_, _, rfl, .inl ht⟩
  | group ho _ _ _ => exact ⟨_, _, rfl, .inr (.inr ho)⟩

theorem Derives.exists_ends (h : Derives l ts f) : ∃ before t, ts = before ++ [t] ∧ Ends t := by
  induction h using Derives.byLevels with
  | @binary _ ls _ t _ _ _ _ _ _ ihr =>
    obtain ⟨before, u, rfl, hu⟩ := ihr
    exact ⟨ls ++ t :: before, u, by simp, hu⟩
  | loosen _ _ ih => exact ih
  | @not t _ _ _ _ ih =>
    obtain ⟨before, u, rfl, hu⟩ := ih
    exact ⟨t :: before, u, rfl, hu⟩
  | name ht => exact ⟨[], _, rfl, .inl ht⟩
  | @group ts _ o c _ _ hc _ => exact ⟨o :: ts, c, rfl, .inr hc⟩

/-- What stands in front of a formula is apart from its first token. -/
theorem Derives.isChain_cons (h : Derives l ts f) (hts : ts.IsChain Apart) (ht : t.kind ≠ .name) :
    (t :: ts).IsChain Apart := by
  obtain ⟨u, rest, rfl, hu⟩ := h.exists_starts
  exact List.isChain_cons_cons.2 ⟨hu.apart ht, hts⟩

/-- What stands behind a formula is apart from its last token. -/
theorem Derives.isChain_append (h : Derives l ts f) (hts : ts.IsChain Apart) {us : List Token}
    (hus : (u :: us).IsChain Apart) (hu : u.kind ≠ .name) : (ts ++ u :: us).IsChain Apart := by
  obtain ⟨before, t, rfl, ht⟩ := h.exists_ends
  refine hts.append hus ?_
  simpa using ht.apart hu

/-- Neighbouring tokens of a formula are not both names and not both connectives. -/
theorem Derives.isChain_apart (h : Derives l ts f) : ts.IsChain Apart := by
  induction h using Derives.byLevels with
  | binary hl ht hr ihl ihr =>
    have hname := ht.ne_name
    exact hl.isChain_append ihl (hr.isChain_cons ihr hname) hname
  | loosen _ _ ih => exact ih
  | not ht h ih => exact h.isChain_cons ih ht.ne_name
  | name _ => exact .singleton _
  | group ho h hc ih =>
    have hclose := h.isChain_append ih (.singleton _) (by rw [hc]; decide)
    obtain ⟨u, rest, rfl, hu⟩ := h.exists_starts
    exact List.isChain_cons_cons.2 ⟨hu.apart (by rw [ho]; decide), hclose⟩

end Sentential.Grammar
