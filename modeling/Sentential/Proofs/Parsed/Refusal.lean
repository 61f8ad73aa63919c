import Sentential.Proofs.Bracket.Unmatched
import Sentential.Proofs.Parsed
import Sentential.Proofs.Postfix.Refusal
import Sentential.Proofs.Token.Offence

/-!
# Texts that cannot be read

A text that is not blank is refused at the first stage that does not accept its normalized form
(`parse_eq_error_iff`): a bracket without a partner, a place without a token, or tokens that form no
formula. Later stages do not refuse anything. The tokens of a balanced text are balanced, so the
reordering finds every parenthesis it looks for, and tokens in postfix order always assemble.
-/

namespace Sentential

open Grammar (Derives)

/-- Why a normalized text cannot be read: the fault of the first stage that does not accept it. -/
inductive Unreadable (declared : List String) (cs : List Char) : Fault → Prop
  | brackets {pos : Nat} (h : Bracket.FirstUnmatched cs pos) : Unreadable declared cs (.unbalanced pos)
  | characters {i : Nat} {f : Fault} (hb : Bracket.Balanced cs) (h : Token.FirstOffends declared cs i f) :
      Unreadable declared cs f
  | grammar {ts : List Token} {f : Fault} (hb : Bracket.Balanced cs) (hs : Token.Scans declared false 0 cs ts)
      (hd : ¬∃ g, Derives .equivalence ts g) (hk : f.kind = .malformedExpression)
      (h : toPostfix ts = .error (.fault f)) : Unreadable declared cs f

variable {source : String} {declared : List String} {cs : List Char} {e : Failure}

/-- A text is refused for its first bracket without a partner, or else for its first place without a
token. -/
theorem Token.tokenize_eq_error_iff : tokenize cs declared = .error e ↔
    (∃ pos : Nat, e = .fault (.unbalanced pos) ∧ Bracket.FirstUnmatched cs pos) ∨
      (Bracket.Balanced cs ∧ ∃ i f, e = .fault f ∧ FirstOffends declared cs i f) := by
  rw [← scan_eq_error_iff]
  unfold tokenize checkBalanced
  cases hb : Bracket.firstUnbalanced cs with
  | none =>
    have hnone : ∀ pos, ¬Bracket.FirstUnmatched cs pos := by
      intro pos hpos
      cases hb.symm.trans (Bracket.firstUnbalanced_eq_some_iff.2 hpos)
    have hscan : (do Except.ok (); scan declared false 0 cs : Outcome (List Token)) =
      scan declared false 0 cs := rfl
    rw [hscan]
    simp [hnone, Bracket.firstUnbalanced_eq_none_iff_balanced.1 hb]
  | some pos =>
    have hfirst := Bracket.firstUnbalanced_eq_some_iff.1 hb
    have hunbalanced : ¬Bracket.Balanced cs := by
      intro hbalanced
      cases hb.symm.trans (Bracket.firstUnbalanced_eq_none_iff_balanced.2 hbalanced)
    have hfails : (do Except.error (.fault (.unbalanced pos)); scan declared false 0 cs : Outcome (List Token)) =
      .error (.fault (.unbalanced pos)) := rfl
    rw [hfails]
    constructor
    · intro h
      exact .inl ⟨pos, (Except.error.inj h).symm, hfirst⟩
    · rintro (⟨j, rfl, hj⟩ | ⟨hbalanced, _⟩)
      · rw [hfirst.unique hj]
      · exact absurd hbalanced hunbalanced

/-- The stages of reading a text that is not blank, one after the other. -/
theorem parse_of_not_blank (hblank : Text.isBlankText source = false) : parse source declared = do
    let tokens ← Token.tokenize (Spelling.normalize source.toList) declared
    let ordered ← toPostfix tokens
    let formula ← Formula.ofPostfix ordered
    return ⟨source, Spelling.normalized source, tokens, ordered, formula⟩ := by
  unfold parse postfixOf
  rw [hblank]
  simp only [Bool.false_eq_true, if_false, bind_assoc, pure_bind]

/-- A text that is not blank is refused with the fault of the first stage that does not accept it. -/
theorem parse_eq_error_iff (hblank : Text.isBlankText source = false) : parse source declared = .error e ↔
    ∃ f, e = .fault f ∧ Unreadable declared (Spelling.normalize source.toList) f := by
  rw [parse_of_not_blank hblank]
  constructor
  · intro h
    rcases Outcome.bind_eq_error_iff.1 h with h | ⟨ts, hts, h⟩
    · rcases Token.tokenize_eq_error_iff.1 h with ⟨pos, rfl, hpos⟩ | ⟨hb, i, f, rfl, hf⟩
      · exact ⟨_, rfl, .brackets hpos⟩
      · exact ⟨f, rfl, .characters hb hf⟩
    · obtain ⟨hb, hs⟩ := Token.tokenize_eq_ok_iff.1 hts
      rcases Outcome.bind_eq_error_iff.1 h with h | ⟨post, hpost, h⟩
      · have hsides : Bracket.depth 0 (Bracket.sidesOfTokens ts) = some 0 := by
          rw [hs.sides_eq]
          exact Bracket.firstUnbalanced_eq_none_iff.1 hb
        obtain ⟨f, rfl, hf⟩ := malformed_of_toPostfix (fun t ht => hs.canonical_of_mem ht) hsides h
        refine ⟨f, rfl, .grammar (Bracket.firstUnbalanced_eq_none_iff_balanced.1 hb) hs ?_ hf.kind_eq h⟩
        rintro ⟨g, hg⟩
        obtain ⟨post, hpost, _⟩ := exists_toPostfix_of_derives hg
        cases h.symm.trans hpost
      · obtain ⟨f, _, hf⟩ := exists_derives_of_toPostfix hpost
        rw [hf] at h
        cases h
  · rintro ⟨f, rfl, hf⟩
    cases hf with
    | brackets h => exact Outcome.bind_eq_error_iff.2 (.inl (Token.tokenize_eq_error_iff.2 (.inl ⟨_, rfl, h⟩)))
    | characters hb h =>
      exact Outcome.bind_eq_error_iff.2 (.inl (Token.tokenize_eq_error_iff.2 (.inr ⟨hb, _, _, rfl, h⟩)))
    | grammar hb hs _ _ h =>
      have hts := Token.tokenize_eq_ok_iff.2 ⟨Bracket.firstUnbalanced_eq_none_iff_balanced.2 hb, hs⟩
      exact Outcome.bind_eq_error_iff.2 (.inr ⟨_, hts, Outcome.bind_eq_error_iff.2 (.inl h)⟩)

end Sentential
