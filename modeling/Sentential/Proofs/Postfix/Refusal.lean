import Mathlib.Data.List.TakeWhile
import Sentential.Proofs.Bracket.Depth
import Sentential.Proofs.Postfix.Step

/-!
# Refused infix tokens

The reordering looks for an open parenthesis itself, and would report an unbalanced one. But as many
parentheses are held as are open in the tokens that were read (`Takes.depth_eq` for one token,
`depth_of_run` for a run). Tokens whose parentheses balance are therefore only refused as malformed
(`malformed_of_toPostfix`).
-/

namespace Sentential

namespace Reordering

open Sentential.Bracket (depth sidesOfTokens)

variable {s s' : Reordering} {t : Token} {ts : List Token} {e : Failure}

/-- The number of parentheses that are held open. -/
def opened (s : Reordering) : Nat := s.held.countP Held.isBracket

/-- Held operators are no parentheses. -/
theorem countP_isBracket_of_forms {out : List Held} {l : Grammar.Level} (h : ∀ x ∈ out, x.Forms l) :
    out.countP Held.isBracket = 0 := by
  refine List.countP_eq_zero.2 fun x hx => ?_
  cases x with
  | bracket t => exact (h _ hx).elim
  | operator t op => simp [Held.isBracket]

@[simp] theorem countP_isBracket_bracket (t : Token) (held : List Held) :
    (Held.bracket t :: held).countP Held.isBracket = held.countP Held.isBracket + 1 :=
  List.countP_cons_of_pos rfl

@[simp] theorem countP_isBracket_operator (t : Token) (op : Operator) (held : List Held) :
    (Held.operator t op :: held).countP Held.isBracket = held.countP Held.isBracket :=
  List.countP_cons_of_neg Bool.false_ne_true

/-- A token opens and closes among what is held what it opens and closes among the tokens. -/
theorem Takes.depth_eq (h : Takes s t s') : depth s.opened (sidesOfTokens [t]) = some s'.opened := by
  cases h with
  | name ht =>
    rw [Bracket.sidesOfTokens_cons_of_plain (.inl ht)]
    rfl
  | not ht =>
    rw [Bracket.sidesOfTokens_cons_of_plain (.inr ht.1)]
    simp [opened, depth, sidesOfTokens]
  | opening ht =>
    rw [Bracket.sidesOfTokens_cons_of_opening ht]
    simp [opened, depth, sidesOfTokens]
  | binary ht hout _ =>
    have hnone := countP_isBracket_of_forms hout
    rw [Bracket.sidesOfTokens_cons_of_plain (.inr ht.1)]
    simp [opened, hnone, depth, sidesOfTokens]
  | closing ht hout =>
    have hnone := countP_isBracket_of_forms hout
    rw [Bracket.sidesOfTokens_cons_of_closing ht]
    simp [opened, hnone, depth, sidesOfTokens]

/-- After a run, as many parentheses are held as the tokens leave open. -/
theorem depth_of_run (h : ts.foldlM step s = .ok s') :
    depth s.opened (sidesOfTokens ts) = some s'.opened := by
  induction ts generalizing s with
  | nil =>
    cases h
    rfl
  | cons t ts ih =>
    obtain ⟨u, hu, h⟩ := Outcome.foldlM_cons_eq_ok_iff.1 h
    have htoken := (step_eq_ok_iff.1 hu).depth_eq
    rw [← List.singleton_append, Bracket.sidesOfTokens_append, Bracket.depth_append, htoken]
    exact ih h

/-- A canonical token that is refused is misplaced, or it closes where no parenthesis is held. -/
theorem fault_of_step (ht : t.Canonical) (h : s.step t = .error e) :
    (∃ expected, e = .fault (.misplaced expected t)) ∨
      (t.kind = .closing ∧ s.opened = 0 ∧ e = .fault (.unbalanced t.pos)) := by
  unfold step at h
  split at h
  next =>
    split at h
    next => cases h
    next => exact .inl ⟨_, (Except.error.inj h).symm⟩
  next hk =>
    have hknown := ht hk
    split at h
    next hop => simp [hop] at hknown
    next =>
      split at h
      next => cases h
      next => exact .inl ⟨_, (Except.error.inj h).symm⟩
    next =>
      split at h
      next => exact .inl ⟨_, (Except.error.inj h).symm⟩
      next => cases h
  next =>
    split at h
    next => cases h
    next => exact .inl ⟨_, (Except.error.inj h).symm⟩
  next hk =>
    split at h
    next => exact .inl ⟨_, (Except.error.inj h).symm⟩
    next =>
      simp only at h
      split at h
      next hdrop =>
        refine .inr ⟨hk, List.countP_eq_zero.2 fun x hx hbracket => ?_, (Except.error.inj h).symm⟩
        have hall := List.dropWhile_eq_nil_iff.1 hdrop x hx
        simp [hbracket] at hall
      next => cases h

/-- A state that cannot be closed lacks an operand at the end, or it holds a parenthesis. -/
theorem fault_of_finish {last? : Option Token} (h : s.finish last? = .error e) :
    (∃ t, last? = some t ∧ e = .fault (.endsEarly t)) ∨ e = .fault .noOperands ∨ s.opened ≠ 0 := by
  unfold finish at h
  split at h
  next =>
    split at h
    next t => exact .inl ⟨t, rfl, (Except.error.inj h).symm⟩
    next => exact .inr (.inl (Except.error.inj h).symm)
  next =>
    split at h
    next x hx =>
      refine .inr (.inr fun hzero => ?_)
      have hnone := List.countP_eq_zero.1 hzero x (List.mem_of_find?_eq_some hx)
      exact hnone (List.find?_some hx)
    next => cases h

end Reordering

/-- How tokens whose parentheses balance are refused: one of them is misplaced, the last one lacks an
operand behind it, or there is no operand at all. -/
inductive Malformed (ts : List Token) : Fault → Prop
  | misplaced {t : Token} (ht : t ∈ ts) (expected : Expected) : Malformed ts (.misplaced expected t)
  | endsEarly {t : Token} (ht : ts.getLast? = some t) : Malformed ts (.endsEarly t)
  | noOperands : Malformed ts .noOperands

namespace Malformed

variable {ts : List Token} {f : Fault}

theorem kind_eq (h : Malformed ts f) : f.kind = .malformedExpression := by
  cases h <;> rfl

/-- What is reported at a position is a token that stands there. -/
theorem exists_reported (h : Malformed ts f) {position : Int} (hp : f.position = some position) :
    ∃ t ∈ ts, t.pos = position ∧ f.token = some t.value := by
  cases h with
  | misplaced ht _ => exact ⟨_, ht, Option.some.inj hp, rfl⟩
  | endsEarly ht => exact ⟨_, List.mem_of_getLast? ht, Option.some.inj hp, rfl⟩
  | noOperands => cases hp

end Malformed

/-- Canonical tokens whose parentheses balance are refused as malformed only. -/
theorem malformed_of_toPostfix {ts : List Token} {e : Failure} (hts : ∀ t ∈ ts, t.Canonical)
    (hbalanced : Bracket.depth 0 (Bracket.sidesOfTokens ts) = some 0) (h : toPostfix ts = .error e) :
    ∃ f : Fault, e = .fault f ∧ Malformed ts f := by
  have hstart : Reordering.start.opened = 0 := rfl
  unfold toPostfix at h
  rcases Outcome.bind_eq_error_iff.1 h with h | ⟨s, hs, h⟩
  · obtain ⟨before, t, after, s, rfl, hs, hstep⟩ := Outcome.exists_of_foldlM_eq_error h
    rcases Reordering.fault_of_step (hts t (by simp)) hstep with ⟨expected, rfl⟩ | ⟨hk, hzero, _⟩
    · exact ⟨_, rfl, .misplaced (by simp) expected⟩
    · -- The closing parenthesis would have no partner among the tokens.
      have hdepth := Reordering.depth_of_run hs
      rw [hstart, hzero] at hdepth
      rw [Bracket.sidesOfTokens_append, Bracket.sidesOfTokens_cons_of_closing hk,
        Bracket.depth_append_closing hdepth] at hbalanced
      cases hbalanced
  · rcases Reordering.fault_of_finish h with ⟨t, ht, rfl⟩ | rfl | hheld
    · exact ⟨_, rfl, .endsEarly ht⟩
    · exact ⟨_, rfl, .noOperands⟩
    · have hdepth := Reordering.depth_of_run hs
      rw [hstart, hbalanced] at hdepth
      exact absurd (Option.some.inj hdepth).symm hheld

end Sentential
