import Sentential.Formula.Unconditional
import Sentential.Proofs.Formula.Valuation
import Sentential.Proofs.Outcome

/-!
# Values of formulas without conditionals

Expressing the conditionals repeats the operands of a biconditional and turns them around, but neither
the value nor the variable that is reported as unbound changes. Each rewriting step keeps the outcome of
evaluation, whatever the outcomes of the operands are (`evaluate_negation`, `evaluate_expressed_implies`,
`evaluate_expressed_iff`), so the whole pass does (`evaluate_unconditional`), by induction on the formula. The
variable that is reported is the leftmost one without a value (`firstUnbound_of_evaluate_error`).
-/

namespace Sentential.Formula

variable {a : Assignment} {f l r : Formula} {e : Failure}

/-- The leftmost variable of the formula without a value. -/
def firstUnbound (a : Assignment) (f : Formula) : Option String :=
  f.leaves.find? fun name => (a.lookup name).isNone

theorem firstUnbound_binary (op : Connective) :
    (binary op l r).firstUnbound a = (l.firstUnbound a).or (r.firstUnbound a) :=
  List.find?_append

/-- A formula that has a value has no variable without one. -/
theorem firstUnbound_of_evaluate {b : Bool} (h : f.evaluate a = .ok b) : f.firstUnbound a = none := by
  induction f generalizing b with
  | var name =>
    cases hname : a.lookup name with
    | some x => simp [firstUnbound, leaves, hname]
    | none => simp [evaluate, hname] at h
  | not f ih =>
    obtain ⟨x, hx, _⟩ := Outcome.bind_eq_ok_iff.1 h
    exact ih hx
  | binary op l r ihl ihr =>
    obtain ⟨x, hx, h⟩ := Outcome.bind_eq_ok_iff.1 h
    obtain ⟨y, hy, _⟩ := Outcome.bind_eq_ok_iff.1 h
    rw [firstUnbound_binary, ihl hx, ihr hy]
    rfl

/-- Evaluation that fails reports the leftmost variable without a value. -/
theorem firstUnbound_of_evaluate_error (h : f.evaluate a = .error e) :
    ∃ name, f.firstUnbound a = some name ∧ e = .fault (.unbound name) := by
  induction f with
  | var name =>
    cases hname : a.lookup name with
    | some x => simp [evaluate, hname] at h
    | none =>
      refine ⟨name, by simp [firstUnbound, leaves, hname], ?_⟩
      simpa [evaluate, hname] using h.symm
  | not f ih =>
    rcases Outcome.bind_eq_error_iff.1 h with h | ⟨x, _, h⟩
    · exact ih h
    · cases h
  | binary op l r ihl ihr =>
    rw [firstUnbound_binary]
    rcases Outcome.bind_eq_error_iff.1 h with h | ⟨x, hx, h⟩
    · obtain ⟨name, hname, he⟩ := ihl h
      exact ⟨name, by rw [hname]; rfl, he⟩
    · rcases Outcome.bind_eq_error_iff.1 h with h | ⟨y, _, h⟩
      · rw [firstUnbound_of_evaluate hx]
        exact ihr h
      · cases h

/-- The negation of a formula has the opposite value, whether or not it drops a negation. -/
theorem evaluate_negation (a : Assignment) (f : Formula) : f.negation.evaluate a = (not f).evaluate a := by
  cases f with
  | not g =>
    rw [negation, evaluate, evaluate]
    cases g.evaluate a with
    | error e => rfl
    | ok b => exact congrArg Except.ok (Bool.not_not b).symm
  | var name => rfl
  | binary op l r => rfl

/-- A conditional is a disjunction with the negated first operand. -/
theorem evaluate_expressed_implies (a : Assignment) (l r : Formula) :
    (binary .or l.negation r).evaluate a = (binary .implies l r).evaluate a := by
  simp only [evaluate, evaluate_negation]
  cases l.evaluate a <;> rfl

/-- A biconditional is the conjunction of the conditionals in both directions. In the second one `r` comes
first, but then both operands have a value already. -/
theorem evaluate_expressed_iff (a : Assignment) (l r : Formula) :
    (binary .and (binary .or l.negation r) (binary .or r.negation l)).evaluate a =
      (binary .iff l r).evaluate a := by
  have himplies : ∀ m n : Formula, (binary .or m.negation n).evaluate a = (binary .implies m n).evaluate a :=
    evaluate_expressed_implies a
  rw [evaluate, himplies, himplies]
  simp only [evaluate]
  cases l.evaluate a with
  | error e => rfl
  | ok x =>
    cases r.evaluate a with
    | error e => rfl
    | ok y => cases x <;> cases y <;> rfl

theorem evaluate_unconditional (a : Assignment) (f : Formula) :
    f.unconditional.evaluate a = f.evaluate a := by
  induction f with
  | var name => rfl
  | not f ih => rw [unconditional, evaluate_negation, evaluate, evaluate, ih]
  | binary op l r ihl ihr =>
    have hoperands : ∀ c, (binary c l.unconditional r.unconditional).evaluate a = (binary c l r).evaluate a := by
      intro c
      rw [evaluate, evaluate, ihl, ihr]
    cases op with
    | implies => exact (evaluate_expressed_implies a _ _).trans (hoperands .implies)
    | iff => exact (evaluate_expressed_iff a _ _).trans (hoperands .iff)
    | and => exact hoperands .and
    | or => exact hoperands .or
    | xor => exact hoperands .xor

/-- Expressing the conditionals keeps the meaning under every assignment, also where variables have no
value: both formulas have the same value, or evaluating either reports the same variable, the leftmost
one of the original formula that is unbound. -/
theorem unconditional_evaluates_alike (f : Formula) (a : Assignment) :
    (∃ b, f.unconditional.evaluate a = .ok b ∧ f.evaluate a = .ok b) ∨
      ∃ name, f.firstUnbound a = some name ∧
        f.unconditional.evaluate a = .error (.fault (.unbound name)) ∧
        f.evaluate a = .error (.fault (.unbound name)) := by
  rw [evaluate_unconditional]
  cases h : f.evaluate a with
  | ok b => exact .inl ⟨b, rfl, rfl⟩
  | error e =>
    obtain ⟨name, hname, rfl⟩ := firstUnbound_of_evaluate_error h
    exact .inr ⟨name, hname, rfl, rfl⟩

end Sentential.Formula
