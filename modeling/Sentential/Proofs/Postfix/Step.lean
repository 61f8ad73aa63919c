import Sentential.Proofs.Cut
import Sentential.Proofs.Grammar.Level
import Sentential.Proofs.Outcome

/-!
# One token of the reordering

`Reordering.Takes` lists what one infix token can do to the state, with the operators that go out
described by their levels: no comparison of precedences is left. `step_eq_ok_iff` ties it to the
step, `finish_eq_ok_iff` says when a state may be closed, and `faults_step` says that
canonical tokens are only ever refused by a fault.
-/

namespace Sentential

namespace Held

/-- An operator is held that forms formulas of the level. -/
def Forms (l : Grammar.Level) : Held → Prop
  | bracket _ => False
  | operator _ op => l.rank ≤ op.level.rank

/-- The level of the operand that may be put on top of what is held. -/
def room : List Held → Grammar.Level
  | [] => .equivalence
  | bracket _ :: _ => .equivalence
  | operator _ op :: _ => op.operandLevel

theorem Forms.loosen {k l : Grammar.Level} {x : Held} (h : x.Forms k) (hl : l.rank ≤ k.rank) :
    x.Forms l := by
  cases x with
  | bracket t => exact h
  | operator t op => exact Nat.le_trans hl h

theorem yieldsTo_iff_forms (x : Held) (c : Connective) :
    x.yieldsTo (.binary c) = true ↔ x.Forms c.firstLevel := by
  cases x with
  | bracket t => simp [yieldsTo, Forms]
  | operator t op => exact yieldsTo_iff t op c

/-- Every operator forms formulas of the loosest level, and a bracket forms none. -/
theorem not_isBracket_iff_forms (x : Held) : (!x.isBracket) = true ↔ x.Forms .equivalence := by
  cases x with
  | bracket t => simp [isBracket, Forms]
  | operator t op => simp [isBracket, Forms, Grammar.Level.rank]

theorem room_rank_le_iff (kept : List Held) (c : Connective) :
    (room kept).rank ≤ (Operator.binary c).level.rank ↔
      ∀ x ∈ kept.head?, x.yieldsTo (.binary c) = false := by
  match kept with
  | [] => simp [room, Grammar.Level.rank]
  | bracket t :: rest => simp [room, yieldsTo, Grammar.Level.rank]
  | operator t op :: rest => simpa [room] using (stays_iff t op c).symm

end Held

namespace Reordering

open Grammar (IsOperator)

/-- What one token can do. -/
inductive Takes : Reordering → Token → Reordering → Prop
  | name {output : List Token} {held : List Held} {t : Token} (ht : t.kind = .name) :
      Takes ⟨output, held, true⟩ t ⟨output ++ [t], held, false⟩
  | not {output : List Token} {held : List Held} {t : Token} (ht : IsOperator .not t) :
      Takes ⟨output, held, true⟩ t ⟨output, .operator t .not :: held, true⟩
  | opening {output : List Token} {held : List Held} {t : Token} (ht : t.kind = .opening) :
      Takes ⟨output, held, true⟩ t ⟨output, .bracket t :: held, true⟩
  /-- The operators that may form the first operand of a connective go out. -/
  | binary {output : List Token} {out kept : List Held} {t : Token} {c : Connective}
      (ht : IsOperator (.binary c) t) (hout : ∀ x ∈ out, x.Forms c.firstLevel)
      (hkept : (Held.room kept).rank ≤ (Operator.binary c).level.rank) :
      Takes ⟨output, out ++ kept, false⟩ t
        ⟨output ++ out.map Held.token, .operator t (.binary c) :: kept, true⟩
  /-- All operators of the innermost bracket go out. -/
  | closing {output : List Token} {out kept : List Held} {o t : Token} (ht : t.kind = .closing)
      (hout : ∀ x ∈ out, x.Forms .equivalence) :
      Takes ⟨output, out ++ .bracket o :: kept, false⟩ t ⟨output ++ out.map Held.token, kept, false⟩

/-- A token is taken with a certain effect exactly if it can have this effect. -/
theorem step_eq_ok_iff {s s' : Reordering} {t : Token} : s.step t = .ok s' ↔ Takes s t s' := by
  constructor
  · intro h
    obtain ⟨output, held, due⟩ := s
    unfold step at h
    split at h
    next ht =>
      cases due with
      | false => simp at h
      | true => cases h; exact .name ht
    next ht =>
      split at h
      next => simp at h
      next hop =>
        cases due with
        | false => simp at h
        | true => cases h; exact .not ⟨ht, hop⟩
      next c hop =>
        cases due with
        | true => simp at h
        | false =>
          obtain ⟨out, kept, rfl, hout, hkept⟩ := exists_cut (Held.yieldsTo (.binary c)) held
          obtain ⟨htake, hdrop⟩ := takeWhile_dropWhile_append hout hkept
          simp only [htake, hdrop, Bool.false_eq_true, if_false] at h
          cases h
          exact .binary ⟨ht, hop⟩ (fun x hx => (Held.yieldsTo_iff_forms x c).1 (hout x hx))
            ((Held.room_rank_le_iff kept c).2 hkept)
    next ht =>
      cases due with
      | false => simp at h
      | true => cases h; exact .opening ht
    next ht =>
      cases due with
      | true => simp at h
      | false =>
        obtain ⟨out, kept, rfl, hout, hkept⟩ := exists_cut (!·.isBracket) held
        obtain ⟨htake, hdrop⟩ := takeWhile_dropWhile_append hout hkept
        simp only [htake, hdrop, Bool.false_eq_true, if_false] at h
        match kept with
        | [] => simp at h
        | .operator u op :: kept => simp [Held.isBracket] at hkept
        | .bracket o :: kept =>
          cases h
          exact .closing ht fun x hx => (Held.not_isBracket_iff_forms x).1 (hout x hx)
  · intro h
    cases h with
    | name ht => simp [step, ht]
    | not ht => simp [step, ht.1, ht.2]
    | opening ht => simp [step, ht]
    | @binary output out kept t c ht hout hkept =>
      obtain ⟨htake, hdrop⟩ := takeWhile_dropWhile_append
        (fun x hx => (Held.yieldsTo_iff_forms x c).2 (hout x hx)) ((Held.room_rank_le_iff kept c).1 hkept)
      simp [step, ht.1, ht.2, htake, hdrop]
    | @closing output out kept o t ht hout =>
      obtain ⟨htake, hdrop⟩ := takeWhile_dropWhile_append (k := .bracket o :: kept)
        (fun x hx => (Held.not_isBracket_iff_forms x).2 (hout x hx)) (by simp [Held.isBracket])
      simp [step, ht, htake, hdrop]

/-- A state can be closed exactly if no operand is due and no bracket is open. -/
theorem finish_eq_ok_iff {s : Reordering} {last? : Option Token} {ts : List Token} :
    s.finish last? = .ok ts ↔ s.operandDue = false ∧ (∀ x ∈ s.held, x.Forms .equivalence) ∧
      ts = s.output ++ s.held.map Held.token := by
  have hnone : s.held.find? Held.isBracket = none ↔ ∀ x ∈ s.held, x.Forms .equivalence := by
    rw [List.find?_eq_none]
    exact forall₂_congr fun x _ => by rw [← Held.not_isBracket_iff_forms]; simp
  rw [← hnone]
  unfold finish
  cases s.operandDue with
  | true => cases last? <;> simp
  | false => cases s.held.find? Held.isBracket <;> simp [eq_comm]

/-- A canonical token is refused only by a fault. -/
theorem faults_step (s : Reordering) {t : Token} (ht : t.Canonical) : Outcome.Faults (s.step t) := by
  unfold step
  split
  next =>
    split
    next => exact .ok _
    next => exact .error _
  next hk =>
    have hknown := ht hk
    split
    next hop => simp [hop] at hknown
    next =>
      split
      next => exact .ok _
      next => exact .error _
    next =>
      split
      next => exact .error _
      next => exact .ok _
  next =>
    split
    next => exact .ok _
    next => exact .error _
  next =>
    split
    next => exact .error _
    next =>
      simp only
      split
      next => exact .error _
      next => exact .ok _

/-- A state that cannot be closed is refused by a fault. -/
theorem faults_finish (s : Reordering) (last? : Option Token) : Outcome.Faults (s.finish last?) := by
  unfold finish
  split
  next => split <;> exact .error _
  next =>
    split
    next => exact .error _
    next => exact .ok _

end Reordering

/-- Canonical tokens are refused only by a fault. -/
theorem faults_toPostfix {ts : List Token} (hts : ∀ t ∈ ts, t.Canonical) : Outcome.Faults (toPostfix ts) := by
  unfold toPostfix
  refine .bind (.foldlM (fun t ht s => s.faults_step (hts t ht)) _) fun s _ => ?_
  exact s.faults_finish _

end Sentential
