import Sentential.Proofs.Formula.Valuation
import Sentential.Proofs.Postfix.Assembly

/-!
# Values on the stack

Postfix tokens can be run on a stack of values, or assembled to a formula that is evaluated
afterwards. `Formula.values` evaluates a stack of operands, the earliest first; seen through it the
step on operands is the step on values (`values_stack`), and so is a whole run
(`values_foldlM_stack`). Both ways therefore report the same variable without a value, whatever
stands to its right.

Where no formula can be assembled there is no value either, since both stacks have the same height
(`exists_ofPostfix_of_evaluatePostfix`). `evaluatePostfix_agrees` puts the two together.
-/

namespace Sentential

/-- The value fits the kind: an operator has a symbol of the operator table, a parenthesis is one.
A name may carry any value. -/
def Token.Fits (t : Token) : Prop :=
  t.Canonical ∧ (t.kind = .opening ∨ t.kind = .closing → t.value = "(" ∨ t.value = ")")

instance (t : Token) : Decidable t.Fits := by unfold Token.Fits; infer_instance

/-- A parenthesis is no operator. -/
theorem Token.Fits.operator?_eq_none {t : Token} (h : t.Fits) (ht : t.kind = .opening ∨ t.kind = .closing) :
    t.operator? = none := by
  unfold operator?
  rcases h.2 ht with hv | hv
  · rw [hv]; decide
  · rw [hv]; decide

namespace Formula

variable {a : Assignment} {ts : List Token} {t : Token} {operands operands' : List Formula}
  {vs vs' : List Bool} {f : Formula} {e : Failure}

/-! ## Operands and their values -/

/-- The values of the operands on a stack; the earliest operand is evaluated first. -/
def values (a : Assignment) : List Formula → Outcome (List Bool)
  | [] => .ok []
  | f :: rest => do
    let vs ← values a rest
    let v ← f.evaluate a
    return v :: vs

/-- Taking a token and evaluating the operands may be done in either order. -/
theorem values_stack (h : stack operands t = .ok operands') :
    values a operands' = values a operands >>= (stackValue a · t) := by
  unfold stack at h
  split at h
  next ht =>
    cases h
    refine congrArg _ (funext fun vs => ?_)
    simp only [evaluate, stackValue, if_pos ht]
    cases a.lookup t.value <;> rfl
  next ht =>
    have hname : t.kind ≠ .name := by rw [ht]; decide
    split at h
    next => cases h
    next f rest hop =>
      cases h
      simp only [values, evaluate, bind_assoc, pure_bind, stackValue, if_neg hname, hop]
      rfl
    next c r l rest hop =>
      cases h
      simp only [values, evaluate, bind_assoc, pure_bind, stackValue, if_neg hname, hop]
      rfl
    next => cases h
  next => cases h

/-- The run on values is the run on operands, evaluated at the end. -/
theorem values_foldlM_stack (h : ts.foldlM stack operands = .ok operands') :
    values a operands' = values a operands >>= (ts.foldlM (stackValue a) ·) := by
  induction ts generalizing operands with
  | nil =>
    cases h
    simp
  | cons t ts ih =>
    obtain ⟨mid, hmid, h⟩ := Outcome.foldlM_cons_eq_ok_iff.1 h
    rw [ih h, values_stack hmid, bind_assoc]
    simp only [List.foldlM_cons]

/-- Postfix tokens that assemble to a formula have its value. -/
theorem evaluatePostfix_of_ofPostfix (h : ofPostfix ts = .ok f) : evaluatePostfix ts a = f.evaluate a := by
  have hrun : values a [f] = ts.foldlM (stackValue a) [] :=
    values_foldlM_stack (ofPostfix_eq_ok_iff.1 h)
  unfold evaluatePostfix
  rw [← hrun]
  simp only [values]
  cases f.evaluate a <;> rfl

/-! ## Tokens that assemble to no formula -/

/-- Why a token cannot be put on a stack of operands. -/
theorem fault_of_stack (ht : t.Canonical) (h : stack operands t = .error e) :
    e = .fault (.strayBracket t) ∨ e = .fault (.missingOperand t) := by
  unfold stack at h
  split at h
  next => cases h
  next hk =>
    have hknown := ht hk
    split at h
    next hop => simp [hop] at hknown
    next => cases h
    next => cases h
    next => exact .inr (Except.error.inj h).symm
  next => exact .inl (Except.error.inj h).symm

/-- Canonical tokens that assemble to no formula are malformed. -/
theorem malformed_of_ofPostfix (hts : ∀ t ∈ ts, t.Canonical) (h : ofPostfix ts = .error e) :
    ∃ g : Fault, e = .fault g ∧ g.kind = .malformedExpression := by
  unfold ofPostfix at h
  rcases Outcome.bind_eq_error_iff.1 h with h | ⟨operands, _, h⟩
  · obtain ⟨_, t, _, _, rfl, _, hs⟩ := Outcome.exists_of_foldlM_eq_error h
    rcases fault_of_stack (hts t (by simp)) hs with rfl | rfl
    · exact ⟨_, rfl, rfl⟩
    · exact ⟨_, rfl, rfl⟩
  · match operands with
    | [] => exact ⟨_, (Except.error.inj h).symm, rfl⟩
    | [_] => cases h
    | _ :: _ :: _ => exact ⟨_, (Except.error.inj h).symm, rfl⟩

/-- A token that is taken by a stack of values is taken by a stack of as many operands. -/
theorem exists_stack_of_stackValue (ht : t.Fits) (h : stackValue a vs t = .ok vs')
    (hlength : operands.length = vs.length) :
    ∃ operands', stack operands t = .ok operands' ∧ operands'.length = vs'.length := by
  unfold stackValue at h
  split at h
  next hk =>
    split at h
    next b hb =>
      cases h
      exact ⟨.var t.value :: operands, by simp [stack, hk], by simp [hlength]⟩
    next => cases h
  next hk =>
    have hkind : t.operator?.isSome = true → t.kind = .operator := by
      intro hsome
      cases hkind : t.kind with
      | name => exact absurd hkind hk
      | operator => rfl
      | opening => simp [ht.operator?_eq_none (.inl hkind)] at hsome
      | closing => simp [ht.operator?_eq_none (.inr hkind)] at hsome
    split at h
    next x rest hop =>
      cases h
      have hop : t.operator? = some .not := hop
      obtain ⟨g, gs, rfl⟩ := List.exists_cons_of_length_eq_add_one hlength
      refine ⟨.not g :: gs, ?_, by simpa using hlength⟩
      simp [stack, hkind (by simp [hop]), hop]
    next c y x rest hop =>
      cases h
      have hop : t.operator? = some (.binary c) := hop
      obtain ⟨r, gs, rfl⟩ := List.exists_cons_of_length_eq_add_one hlength
      obtain ⟨l, gs, rfl⟩ := List.exists_cons_of_length_eq_add_one (Nat.succ.inj hlength)
      refine ⟨.binary c l r :: gs, ?_, by simpa using hlength⟩
      simp [stack, hkind (by simp [hop]), hop]
    next => cases h

/-- The two stacks have the same height after every run. -/
theorem exists_foldlM_stack (hts : ∀ t ∈ ts, t.Fits) (h : ts.foldlM (stackValue a) vs = .ok vs')
    (hlength : operands.length = vs.length) :
    ∃ operands', ts.foldlM stack operands = .ok operands' ∧ operands'.length = vs'.length := by
  induction ts generalizing operands vs with
  | nil =>
    cases h
    exact ⟨operands, rfl, hlength⟩
  | cons t ts ih =>
    obtain ⟨mid, hmid, h⟩ := Outcome.foldlM_cons_eq_ok_iff.1 h
    obtain ⟨next, hnext, hnextLength⟩ := exists_stack_of_stackValue (hts t List.mem_cons_self) hmid hlength
    obtain ⟨operands', hrun, hrunLength⟩ :=
      ih (fun u hu => hts u (List.mem_cons_of_mem t hu)) h hnextLength
    exact ⟨operands', Outcome.foldlM_cons_eq_ok_iff.2 ⟨next, hnext, hrun⟩, hrunLength⟩

/-- Postfix tokens that have a value assemble to a formula. -/
theorem exists_ofPostfix_of_evaluatePostfix {b : Bool} (hts : ∀ t ∈ ts, t.Fits)
    (h : evaluatePostfix ts a = .ok b) : ∃ f, ofPostfix ts = .ok f := by
  unfold evaluatePostfix at h
  obtain ⟨vs, hvs, h⟩ := Outcome.bind_eq_ok_iff.1 h
  have hone : vs.length = 1 := by
    split at h
    next => rfl
    next => cases h
  have hempty : ([] : List Formula).length = ([] : List Bool).length := rfl
  obtain ⟨operands, hrun, hlength⟩ := exists_foldlM_stack hts hvs hempty
  obtain ⟨f, rfl⟩ := List.length_eq_one_iff.1 (hlength.trans hone)
  exact ⟨f, ofPostfix_eq_ok_iff.2 hrun⟩

end Formula

variable {a : Assignment} {ts : List Token} {t : Token} {e : Failure}

/-- Why a token cannot be put on a stack of values. -/
theorem fault_of_stackValue {vs : List Bool} (h : stackValue a vs t = .error e) :
    e = .fault (.inapplicable t) ∨
      t.kind = .name ∧ a.lookup t.value = none ∧ e = .fault (.unbound t.value) := by
  unfold stackValue at h
  split at h
  next hk =>
    split at h
    next => cases h
    next hnone => exact .inr ⟨hk, hnone, (Except.error.inj h).symm⟩
  next =>
    split at h
    next => cases h
    next => cases h
    next => exact .inl (Except.error.inj h).symm

/-- Postfix tokens without a value are malformed or hold a name without a value. -/
theorem fault_of_evaluatePostfix (h : evaluatePostfix ts a = .error e) :
    ∃ g : Fault, e = .fault g ∧ (g.kind = .malformedExpression ∨
      ∃ t ∈ ts, t.kind = .name ∧ a.lookup t.value = none ∧ g = .unbound t.value) := by
  unfold evaluatePostfix at h
  rcases Outcome.bind_eq_error_iff.1 h with h | ⟨vs, _, h⟩
  · obtain ⟨_, t, _, _, rfl, _, hs⟩ := Outcome.exists_of_foldlM_eq_error h
    rcases fault_of_stackValue hs with rfl | ⟨hk, hnone, rfl⟩
    · exact ⟨_, rfl, .inl rfl⟩
    · exact ⟨_, rfl, .inr ⟨t, by simp, hk, hnone, rfl⟩⟩
  · split at h
    next => cases h
    next => exact ⟨_, (Except.error.inj h).symm, .inl rfl⟩

/-- The run on values agrees with the formula of the tokens: both give the same value, or both report
the same name without a value. Where the tokens assemble to no formula the run has no value: it
finds them malformed, unless it first meets a name without a value. -/
theorem evaluatePostfix_agrees (hts : ∀ t ∈ ts, t.Fits) (a : Assignment) :
    (∀ f, Formula.ofPostfix ts = .ok f → evaluatePostfix ts a = f.evaluate a ∧
      ((∃ b, f.evaluate a = .ok b) ∨
        ∃ name, a.lookup name = none ∧ f.evaluate a = .error (.fault (.unbound name)))) ∧
    (∀ e, Formula.ofPostfix ts = .error e →
      (∃ g : Fault, e = .fault g ∧ g.kind = .malformedExpression) ∧
      ∃ g : Fault, evaluatePostfix ts a = .error (.fault g) ∧ (g.kind = .malformedExpression ∨
        ∃ t ∈ ts, t.kind = .name ∧ a.lookup t.value = none ∧ g = .unbound t.value)) ∧
    ((∀ t ∈ ts, t.kind = .name → (a.lookup t.value).isSome = true) →
      ∀ e, Formula.ofPostfix ts = .error e →
        ∃ g : Fault, evaluatePostfix ts a = .error (.fault g) ∧ g.kind = .malformedExpression) := by
  have hfails : ∀ e, Formula.ofPostfix ts = .error e →
      ∃ g : Fault, evaluatePostfix ts a = .error (.fault g) ∧ (g.kind = .malformedExpression ∨
        ∃ t ∈ ts, t.kind = .name ∧ a.lookup t.value = none ∧ g = .unbound t.value) := by
    intro e he
    cases hv : evaluatePostfix ts a with
    | ok b =>
      obtain ⟨f, hf⟩ := Formula.exists_ofPostfix_of_evaluatePostfix hts hv
      cases he.symm.trans hf
    | error e' =>
      obtain ⟨g, rfl, hg⟩ := fault_of_evaluatePostfix hv
      exact ⟨g, rfl, hg⟩
  refine ⟨fun f hf => ⟨Formula.evaluatePostfix_of_ofPostfix hf, ?_⟩, fun e he => ⟨?_, hfails e he⟩, ?_⟩
  · rcases Formula.evaluate_cases a f with ⟨b, hb⟩ | ⟨name, _, hnone, hunbound⟩
    · exact .inl ⟨b, hb⟩
    · exact .inr ⟨name, hnone, hunbound⟩
  · exact Formula.malformed_of_ofPostfix (fun t ht => (hts t ht).1) he
  · intro hbound e he
    obtain ⟨g, hg, hkind | ⟨t, ht, hname, hnone, _⟩⟩ := hfails e he
    · exact ⟨g, hg, hkind⟩
    · have hsome := hbound t ht hname
      rw [hnone] at hsome
      cases hsome

/-- The tokens `p ¬ r s → →` assemble to a formula, and `r` is the first name without a value. -/
theorem evaluatePostfix_agrees_unbound :
    let ts : List Token := [⟨.name, "p", 0⟩, ⟨.operator, "¬", 1⟩, ⟨.name, "r", 2⟩, ⟨.name, "s", 3⟩,
      ⟨.operator, "→", 4⟩, ⟨.operator, "→", 5⟩]
    (∀ t ∈ ts, t.Fits) ∧ evaluatePostfix ts [("p", true)] = .error (.fault (.unbound "r")) := by
  intro ts
  have hts : ∀ t ∈ ts, t.Fits := by decide
  have hf : Formula.ofPostfix ts = .ok (.binary .implies (.not (.var "p"))
      (.binary .implies (.var "r") (.var "s"))) := rfl
  exact ⟨hts, ((evaluatePostfix_agrees hts [("p", true)]).1 _ hf).1⟩

end Sentential
