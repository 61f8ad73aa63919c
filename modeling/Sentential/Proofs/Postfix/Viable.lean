import Sentential.Proofs.Grammar.Group
import Sentential.Proofs.Postfix.Language
import Sentential.Proofs.Postfix.Refusal

/-!
# The earliest token that is wrong

Tokens are `Viable` if others behind them can make them an infix formula. The reordering reads exactly
the viable ones to their end (`viable_iff_exists_run`): from every state a name, where one is due, and a
closing parenthesis for each one that is open lead to a formula (`Reordering.exists_completion`). So the
first token with which the beginning is no longer viable is the one that is refused. Where all tokens are
read, the fault at the end is found in the state: an operand is due exactly behind an operator or an
opening parenthesis (`Takes.operandDue_iff`), and the bracket that is held innermost is the last one that
was opened and not closed (`Waits.innermostOpen`).
-/

namespace Sentential

/-- With some tokens behind them the tokens are an infix formula. -/
def Viable (ts : List Token) : Prop := ∃ more post, toPostfix (ts ++ more) = .ok post

/-- All tokens in front of place `i` are taken, and the one at this place is refused. -/
def RefusedAt (ts : List Token) (i : Nat) (f : Fault) : Prop :=
  ∃ s t, (ts.take i).foldlM Reordering.step .start = .ok s ∧ ts[i]? = some t ∧ s.step t = .error (.fault f)

/-- An operand must follow the token. -/
def Token.AwaitsOperand (t : Token) : Prop := t.kind = .operator ∨ t.kind = .opening

instance (t : Token) : Decidable t.AwaitsOperand := by unfold Token.AwaitsOperand; infer_instance

/-- The parenthesis is open at the end, and all those behind it are closed. -/
def InnermostOpen (ts : List Token) (o : Token) : Prop :=
  ∃ before after, ts = before ++ o :: after ∧ o.kind = .opening ∧
    Bracket.depth 0 (Bracket.sidesOfTokens after) = some 0

theorem InnermostOpen.append {ts us : List Token} {o : Token} (h : InnermostOpen ts o)
    (hus : Bracket.depth 0 (Bracket.sidesOfTokens us) = some 0) : InnermostOpen (ts ++ us) o := by
  obtain ⟨before, after, rfl, ho, hafter⟩ := h
  refine ⟨before, after ++ us, by simp, ho, ?_⟩
  rw [Bracket.sidesOfTokens_append, Bracket.depth_append, hafter]
  exact hus

namespace Reordering

variable {s s' : Reordering} {ts post : List Token} {t o : Token} {held out kept : List Held} {last? : Option Token}

/-- An open bracket has one innermost. -/
theorem exists_innermost (h : 0 < held.countP Held.isBracket) :
    ∃ out o kept, held = out ++ .bracket o :: kept ∧ ∀ x ∈ out, x.Forms .equivalence := by
  obtain ⟨out, kept, rfl, hout, hkept⟩ := exists_cut (!·.isBracket) held
  have hforms : ∀ x ∈ out, x.Forms .equivalence := fun x hx => (Held.not_isBracket_iff_forms x).1 (hout x hx)
  match kept with
  | [] =>
    rw [List.append_nil, countP_isBracket_of_forms hforms] at h
    omega
  | .operator t op :: kept => simp [Held.isBracket] at hkept
  | .bracket o :: kept => exact ⟨out, o, kept, rfl, hforms⟩

/-- Behind an operand, closing parentheses lead to a state that can be closed. -/
theorem exists_closings (output : List Token) (held : List Held) :
    ∃ (more : List Token) (s' : Reordering), more.foldlM step ⟨output, held, false⟩ = .ok s' ∧
      s'.operandDue = false ∧ ∀ x ∈ s'.held, x.Forms .equivalence := by
  generalize hn : held.countP Held.isBracket = n
  induction n generalizing output held with
  | zero =>
    refine ⟨[], _, rfl, rfl, fun x hx => (Held.not_isBracket_iff_forms x).1 ?_⟩
    simpa using List.countP_eq_zero.1 hn x hx
  | succ n ih =>
    have hopen : 0 < held.countP Held.isBracket := by omega
    obtain ⟨out, o, kept, rfl, hout⟩ := exists_innermost hopen
    have hkept : kept.countP Held.isBracket = n := by
      rw [List.countP_append, countP_isBracket_of_forms hout, countP_isBracket_bracket] at hn
      omega
    obtain ⟨more, s', hmore, hdue, hforms⟩ := ih (output ++ out.map Held.token) kept hkept
    have hclose : Takes ⟨output, out ++ .bracket o :: kept, false⟩ ⟨.closing, ")", 0⟩
        ⟨output ++ out.map Held.token, kept, false⟩ := .closing rfl hout
    exact ⟨_ :: more, s', Outcome.foldlM_cons_eq_ok_iff.2 ⟨_, step_eq_ok_iff.2 hclose, hmore⟩, hdue, hforms⟩

/-- From every state some tokens lead to a state that can be closed. -/
theorem exists_completion (s : Reordering) :
    ∃ (more : List Token) (s' : Reordering), more.foldlM step s = .ok s' ∧
      s'.operandDue = false ∧ ∀ x ∈ s'.held, x.Forms .equivalence := by
  obtain ⟨output, held, due⟩ := s
  cases due with
  | false => exact exists_closings output held
  | true =>
    have hname : Takes ⟨output, held, true⟩ ⟨.name, "p", 0⟩ ⟨output ++ [⟨.name, "p", 0⟩], held, false⟩ := .name rfl
    obtain ⟨more, s', hmore, hclosed⟩ := exists_closings (output ++ [⟨.name, "p", 0⟩]) held
    exact ⟨_ :: more, s', Outcome.foldlM_cons_eq_ok_iff.2 ⟨_, step_eq_ok_iff.2 hname, hmore⟩, hclosed⟩

/-- An operand is due behind an operator and behind an opening parenthesis only. -/
theorem Takes.operandDue_iff (h : Takes s t s') : s'.operandDue = true ↔ t.AwaitsOperand := by
  cases h with
  | name ht => simp [Token.AwaitsOperand, ht]
  | not ht => simp [Token.AwaitsOperand, ht.1]
  | opening ht => simp [Token.AwaitsOperand, ht]
  | binary ht _ _ => simp [Token.AwaitsOperand, ht.1]
  | closing ht _ => simp [Token.AwaitsOperand, ht]

/-- The innermost bracket that is held is the one that is open innermost in the tokens. -/
theorem Waits.innermostOpen {operands : List Formula} (h : Waits (out ++ .bracket o :: kept) ts operands)
    (hout : ∀ x ∈ out, x.Forms .equivalence) : InnermostOpen ts o := by
  induction out generalizing ts operands with
  | nil =>
    cases h with
    | @bracket _ ts _ _ h ht => exact ⟨ts, [], rfl, ht, rfl⟩
  | cons x out ih =>
    have hrest : ∀ y ∈ out, y.Forms .equivalence := fun y hy => hout y (List.mem_cons_of_mem x hy)
    cases h with
    | bracket h ht => exact (hout _ List.mem_cons_self).elim
    | @not _ _ _ t h ht =>
      refine (ih h hrest).append ?_
      rw [Bracket.sidesOfTokens_cons_of_plain (.inr ht.1)]
      rfl
    | @binary _ _ ls _ t _ _ h _ hl ht =>
      refine (ih h hrest).append ?_
      rw [Bracket.sidesOfTokens_append, Bracket.depth_append, hl.depth_eq,
        Bracket.sidesOfTokens_cons_of_plain (.inr ht.1)]
      rfl

theorem Reads.innermostOpen {output : List Token} (h : Reads ⟨output, out ++ .bracket o :: kept, false⟩ ts)
    (hout : ∀ x ∈ out, x.Forms .equivalence) : InnermostOpen ts o := by
  cases h with
  | placed hwaits hf _ => exact (hwaits.innermostOpen hout).append hf.depth_eq

/-- A state that holds a bracket is closed with the fault of the innermost one. -/
theorem finish_eq_unbalanced (hout : ∀ x ∈ out, x.Forms .equivalence) (output : List Token) :
    (⟨output, out ++ .bracket o :: kept, false⟩ : Reordering).finish last? = .error (.fault (.unbalanced o.pos)) := by
  have hfind : (out ++ .bracket o :: kept).find? Held.isBracket = some (.bracket o) := by
    have hnone : out.find? Held.isBracket = none := by
      refine List.find?_eq_none.2 fun x hx => ?_
      simpa using (Held.not_isBracket_iff_forms x).2 (hout x hx)
    simp [List.find?_append, hnone, Held.isBracket]
  simp [finish, hfind, Held.token]

end Reordering

variable {ts : List Token} {i : Nat} {f : Fault}

/-- The viable tokens are those that are read to their end. -/
theorem viable_iff_exists_run : Viable ts ↔ ∃ s, ts.foldlM Reordering.step .start = .ok s := by
  constructor
  · rintro ⟨more, post, h⟩
    obtain ⟨_, hrun, _⟩ := Outcome.bind_eq_ok_iff.1 h
    obtain ⟨s, hs, _⟩ := Outcome.foldlM_append_eq_ok_iff.1 hrun
    exact ⟨s, hs⟩
  · rintro ⟨s, hs⟩
    obtain ⟨more, s', hmore, hdue, hforms⟩ := s.exists_completion
    refine ⟨more, s'.output ++ s'.held.map Held.token, Outcome.bind_eq_ok_iff.2 ⟨s', ?_, ?_⟩⟩
    · exact Outcome.foldlM_append_eq_ok_iff.2 ⟨s, hs, hmore⟩
    · exact Reordering.finish_eq_ok_iff.2 ⟨hdue, hforms, rfl⟩

/-- A token is refused exactly if the beginning that it ends is the first that is not viable. -/
theorem exists_refusedAt_iff (hts : ∀ t ∈ ts, t.Canonical) (hi : i < ts.length) :
    (∃ f, RefusedAt ts i f) ↔ Viable (ts.take i) ∧ ¬Viable (ts.take (i + 1)) := by
  have htake : ts.take (i + 1) = ts.take i ++ [ts[i]] := List.take_succ_eq_append_getElem hi
  rw [htake]
  simp only [viable_iff_exists_run, Outcome.foldlM_append_eq_ok_iff]
  constructor
  · rintro ⟨f, s, t, hs, ht, hf⟩
    refine ⟨⟨s, hs⟩, ?_⟩
    rintro ⟨s', mid, hmid, hs'⟩
    obtain rfl : s = mid := Except.ok.inj (hs.symm.trans hmid)
    obtain rfl : ts[i] = t := Option.some.inj ((List.getElem?_eq_getElem hi).symm.trans ht)
    obtain ⟨_, htaken, _⟩ := Outcome.foldlM_cons_eq_ok_iff.1 hs'
    cases hf.symm.trans htaken
  · rintro ⟨⟨s, hs⟩, hnone⟩
    cases hstep : s.step ts[i] with
    | ok s' => exact absurd ⟨s', s, hs, Outcome.foldlM_cons_eq_ok_iff.2 ⟨s', hstep, rfl⟩⟩ hnone
    | error e =>
      obtain ⟨f, rfl⟩ := s.faults_step (hts _ (List.getElem_mem hi)) e hstep
      exact ⟨f, s, _, hs, List.getElem?_eq_getElem hi, hstep⟩

/-- The fault of a token that is refused is the fault of all tokens, and it is reported at this token. -/
theorem RefusedAt.toPostfix_eq (hts : ∀ t ∈ ts, t.Canonical) (h : RefusedAt ts i f) {t : Token}
    (ht : ts[i]? = some t) : toPostfix ts = .error (.fault f) ∧ f.position = some t.pos ∧
      (f.kind = .malformedExpression ∧ f.token = some t.value ∨ f.kind = .unbalancedParentheses) := by
  obtain ⟨s, _, hs, ht', hf⟩ := h
  obtain rfl := Option.some.inj (ht'.symm.trans ht)
  refine ⟨?_, ?_⟩
  · have hrun : ts.foldlM Reordering.step .start = .error (.fault f) := by
      obtain ⟨hi, rfl⟩ := List.getElem?_eq_some_iff.1 ht
      rw [← List.take_append_drop i ts, List.foldlM_append, hs, List.drop_eq_getElem_cons hi]
      refine Outcome.bind_eq_error_iff.2 (.inr ⟨s, rfl, ?_⟩)
      exact Outcome.bind_eq_error_iff.2 (.inl hf)
    exact Outcome.bind_eq_error_iff.2 (.inl hrun)
  · rcases Reordering.fault_of_step (hts _ (List.mem_of_getElem? ht)) hf with ⟨expected, he⟩ | ⟨hk, hzero, he⟩
    · cases he
      exact ⟨rfl, .inl ⟨rfl, rfl⟩⟩
    · cases he
      exact ⟨rfl, .inr rfl⟩

/-- Viable tokens that are no formula lack an operand behind the last one, or a parenthesis is open. -/
theorem Viable.toPostfix_eq (h : Viable ts) (hne : ts ≠ []) (hnone : ∀ post, toPostfix ts ≠ .ok post) :
    ∃ last, ts.getLast? = some last ∧
      (last.AwaitsOperand → toPostfix ts = .error (.fault (.endsEarly last))) ∧
      (¬last.AwaitsOperand → ∃ o, InnermostOpen ts o ∧ toPostfix ts = .error (.fault (.unbalanced o.pos))) := by
  obtain ⟨s, hs⟩ := viable_iff_exists_run.1 h
  have hfinish : toPostfix ts = s.finish ts.getLast? := by
    rw [toPostfix, hs]
    rfl
  obtain ⟨before, last, rfl⟩ := List.eq_nil_or_concat' ts |>.resolve_left hne
  have hlast : (before ++ [last]).getLast? = some last := List.getLast?_concat
  have hdue : s.operandDue = true ↔ last.AwaitsOperand := by
    obtain ⟨_, _, hrun⟩ := Outcome.foldlM_append_eq_ok_iff.1 hs
    obtain ⟨_, htaken, hend⟩ := Outcome.foldlM_cons_eq_ok_iff.1 hrun
    cases hend
    exact (Reordering.step_eq_ok_iff.1 htaken).operandDue_iff
  refine ⟨last, hlast, fun hawaits => ?_, fun hplaced => ?_⟩
  · rw [hfinish, hlast]
    simp [Reordering.finish, hdue.2 hawaits]
  · obtain ⟨output, held, due⟩ := s
    obtain rfl : due = false := by simpa using mt hdue.1 hplaced
    by_cases hopen : 0 < held.countP Held.isBracket
    · obtain ⟨out, o, kept, rfl, hout⟩ := Reordering.exists_innermost hopen
      have hread : Reordering.Reads _ ([] ++ (before ++ [last])) := Reordering.Reads.run (.due .nil .nil) hs
      refine ⟨o, ?_, hfinish.trans (Reordering.finish_eq_unbalanced hout output)⟩
      exact hread.innermostOpen hout
    · -- Nothing would be open, and the tokens would be a formula.
      have hforms : ∀ x ∈ held, x.Forms .equivalence := by
        intro x hx
        refine (Held.not_isBracket_iff_forms x).1 ?_
        simpa using List.countP_eq_zero.1 (Nat.eq_zero_of_not_pos hopen) x hx
      exact absurd (hfinish.trans (Reordering.finish_eq_ok_iff.2 ⟨rfl, hforms, rfl⟩)) (hnone _)

/-- Faults are found at the earliest token. A token is refused exactly if the tokens in front of it are viable
and are not with it any more, and then it is reported with its position. Where all tokens are viable and
are no formula, the last one is reported if an operand must follow it, and the innermost open parenthesis
otherwise. -/
theorem refused_at_earliest_token (ts : List Token) (hts : ∀ t ∈ ts, t.Canonical) :
    (∀ i t, ts[i]? = some t →
      ((∃ f, RefusedAt ts i f) ↔ Viable (ts.take i) ∧ ¬Viable (ts.take (i + 1))) ∧
      ∀ f, RefusedAt ts i f → toPostfix ts = .error (.fault f) ∧ f.position = some t.pos ∧
        (f.kind = .malformedExpression ∧ f.token = some t.value ∨ f.kind = .unbalancedParentheses)) ∧
    (Viable ts → ts ≠ [] → (∀ post, toPostfix ts ≠ .ok post) → ∃ last, ts.getLast? = some last ∧
      (last.AwaitsOperand → toPostfix ts = .error (.fault (.endsEarly last))) ∧
      (¬last.AwaitsOperand → ∃ o, InnermostOpen ts o ∧ toPostfix ts = .error (.fault (.unbalanced o.pos)))) := by
  refine ⟨fun i t ht => ⟨?_, fun f hf => hf.toPostfix_eq hts ht⟩, Viable.toPostfix_eq⟩
  exact exists_refusedAt_iff hts (List.getElem?_eq_some_iff.1 ht).1

/-- In `(p ∧) q` the closing parenthesis is the first wrong token. In `(p ∨ (q` the second parenthesis is
the innermost open one. -/
theorem refused_at_earliest_token_group :
    let wrong : List Token := [⟨.opening, "(", 0⟩, ⟨.name, "p", 1⟩, ⟨.operator, "∧", 3⟩, ⟨.closing, ")", 4⟩,
      ⟨.name, "q", 6⟩]
    let unfinished : List Token := [⟨.opening, "(", 0⟩, ⟨.name, "p", 1⟩, ⟨.operator, "∨", 3⟩,
      ⟨.opening, "(", 5⟩, ⟨.name, "q", 6⟩]
    ((∀ t ∈ wrong, t.Canonical) ∧ RefusedAt wrong 3 (.misplaced .operand ⟨.closing, ")", 4⟩) ∧
      Viable (wrong.take 3) ∧ ¬Viable (wrong.take 4)) ∧
    (∀ t ∈ unfinished, t.Canonical) ∧ Viable unfinished ∧ unfinished ≠ [] ∧
      (∀ post, toPostfix unfinished ≠ .ok post) ∧
      ∃ o, InnermostOpen unfinished o ∧ toPostfix unfinished = .error (.fault (.unbalanced o.pos)) := by
  intro wrong unfinished
  have hwrong : ∀ t ∈ wrong, t.Canonical := by decide
  have hrefused : RefusedAt wrong 3 (.misplaced .operand ⟨.closing, ")", 4⟩) := ⟨_, _, rfl, rfl, rfl⟩
  have hunfinished : ∀ t ∈ unfinished, t.Canonical := by decide
  have hviable : Viable unfinished := ⟨[⟨.closing, ")", 7⟩, ⟨.closing, ")", 8⟩], _, rfl⟩
  have herror : toPostfix unfinished = .error (.fault (.unbalanced 5)) := rfl
  have hnone : ∀ post, toPostfix unfinished ≠ .ok post := by
    intro post h
    cases herror.symm.trans h
  obtain ⟨last, hlast, _, hopen⟩ :=
    (refused_at_earliest_token unfinished hunfinished).2 hviable (List.cons_ne_nil _ _) hnone
  obtain rfl : ⟨.name, "q", 6⟩ = last := Option.some.inj hlast
  refine ⟨⟨hwrong, hrefused, ?_⟩, hunfinished, hviable, List.cons_ne_nil _ _, hnone, hopen (by decide)⟩
  exact ((refused_at_earliest_token wrong hwrong).1 3 _ rfl).1.1 ⟨_, hrefused⟩

end Sentential
