import Sentential.Proofs.Postfix.Assembly
import Sentential.Proofs.Postfix.Step

/-!
# Infix tokens and the grammar

Reordering infix tokens and assembling the postfix result gives a formula exactly if the grammar
derives the formula from the tokens (`ofInfix_eq_ok_iff`).

Soundness follows the state. `Waits` explains what is held, with the operands below it, by the
tokens that were read, and `Reads` is the invariant of a run: the tokens since the last thing held
form a primary. When operators go out, `Waits.collapse` joins them with their operands.

Completeness follows the derivation. `Runs` says what a run over the tokens of one formula does
to any state in which the formula may stand; the operators that it leaves behind are as tight
as the formula, so the next token of a looser level sends all of them out.
-/

namespace Sentential

/-- The formula that infix tokens form. -/
def Formula.ofInfix (ts : List Token) : Outcome Formula := toPostfix ts >>= ofPostfix

namespace Reordering

open Grammar Held

/-! ## What a state has read -/

/-- What is held while an operand is due, with the tokens that put it there and the operands that
wait for the held connectives. -/
inductive Waits : List Held → List Token → List Formula → Prop
  | nil : Waits [] [] []
  | bracket {held : List Held} {ts : List Token} {operands : List Formula} {t : Token}
      (h : Waits held ts operands) (ht : t.kind = .opening) :
      Waits (.bracket t :: held) (ts ++ [t]) operands
  | not {held : List Held} {ts : List Token} {operands : List Formula} {t : Token}
      (h : Waits held ts operands) (ht : IsOperator .not t) :
      Waits (.operator t .not :: held) (ts ++ [t]) operands
  | binary {held : List Held} {ts ls : List Token} {operands : List Formula} {t : Token}
      {c : Connective} {l : Formula} (h : Waits held ts operands)
      (hroom : (room held).rank ≤ (Operator.binary c).level.rank) (hl : Derives c.firstLevel ls l)
      (ht : IsOperator (.binary c) t) :
      Waits (.operator t (.binary c) :: held) (ts ++ (ls ++ [t])) (l :: operands)

/-- The state is explained by the tokens. After an operand these end in a primary. -/
inductive Reads : Reordering → List Token → Prop
  | due {output ts : List Token} {held : List Held} {operands : List Formula}
      (h : Waits held ts operands) (ho : Assembles output operands) : Reads ⟨output, held, true⟩ ts
  | placed {output before ls : List Token} {held : List Held} {operands : List Formula} {f : Formula}
      (h : Waits held before operands) (hf : Derives .primary ls f)
      (ho : Assembles output (f :: operands)) : Reads ⟨output, held, false⟩ (before ++ ls)

theorem room_rank_le (held : List Held) : (room held).rank ≤ Level.negation.rank := by
  match held with
  | [] => exact Nat.zero_le _
  | .bracket _ :: _ => exact Nat.zero_le _
  | .operator _ op :: _ => exact op.operandLevel_rank_le

/-- Operators that go out are joined with the operand above them and those below. -/
theorem Waits.collapse {out kept : List Held} {before ls output : List Token}
    {operands : List Formula} {k l : Level} {f : Formula} (h : Waits (out ++ kept) before operands)
    (hout : ∀ x ∈ out, x.Forms l) (hroom : (room (out ++ kept)).rank ≤ k.rank)
    (hl : l.rank ≤ k.rank) (hf : Derives k ls f) (ho : Assembles output (f :: operands)) :
    ∃ before' ls' operands' f', before ++ ls = before' ++ ls' ∧ Waits kept before' operands' ∧
      Derives l ls' f' ∧ Assembles (output ++ out.map Held.token) (f' :: operands') := by
  induction out generalizing before ls output operands k f with
  | nil => exact ⟨before, ls, operands, f, rfl, h, hf.loosen hl, by simpa using ho⟩
  | cons x out ih =>
    have hx := hout x List.mem_cons_self
    have hrest : ∀ y ∈ out, y.Forms l := fun y hy => hout y (List.mem_cons_of_mem x hy)
    cases h with
    | bracket h ht => exact hx.elim
    | @not _ ts _ t h ht =>
      obtain ⟨before', ls', operands', f', heq, hw, hd, ha⟩ :=
        ih h hrest (room_rank_le _) hx (.not ht (hf.loosen hroom)) (ho.not ht)
      exact ⟨before', ls', operands', f', by simpa using heq, hw, hd, by simpa [token] using ha⟩
    | @binary _ ts ms _ t c m h hkept hm ht =>
      obtain ⟨before', ls', operands', f', heq, hw, hd, ha⟩ :=
        ih h hrest hkept hx (.binary hm ht (hf.loosen hroom)) (ho.binary ht)
      exact ⟨before', ls', operands', f', by simpa using heq, hw, hd, by simpa [token] using ha⟩

/-- One token is added to what a state has read. -/
theorem Reads.takes {s s' : Reordering} {ts : List Token} {t : Token} (h : Reads s ts)
    (hs : Takes s t s') : Reads s' (ts ++ [t]) := by
  cases hs with
  | name ht =>
    cases h with
    | due h ho => exact .placed h (.name ht) (ho.name ht)
  | not ht =>
    cases h with
    | due h ho => exact .due (h.not ht) ho
  | opening ht =>
    cases h with
    | due h ho => exact .due (h.bracket ht) ho
  | @binary _ _ _ _ c ht hout hkept =>
    have hfirst : c.firstLevel.rank ≤ Level.primary.rank := by cases c <;> decide
    cases h with
    | @placed _ before ls _ _ _ h hf ho =>
      obtain ⟨before', ls', operands', f', heq, hw, hd, ha⟩ :=
        h.collapse hout (Nat.le_succ_of_le (room_rank_le _)) hfirst hf ho
      rw [heq, List.append_assoc]
      exact .due (hw.binary hkept hd ht) ha
  | closing ht hout =>
    cases h with
    | @placed _ before ls _ _ _ h hf ho =>
      obtain ⟨before', ls', operands', f', heq, hw, hd, ha⟩ :=
        h.collapse hout (Nat.le_succ_of_le (room_rank_le _)) (Nat.zero_le _) hf ho
      rw [heq]
      cases hw with
      | @bracket _ ts _ o hw hopen =>
        have := Reads.placed hw (.group hopen hd ht) ha
        simpa using this

/-- A run adds its tokens to what a state has read. -/
theorem Reads.run {s s' : Reordering} {before ts : List Token} (h : Reads s before)
    (hs : ts.foldlM step s = .ok s') : Reads s' (before ++ ts) := by
  induction ts generalizing s before with
  | nil =>
    cases hs
    simpa using h
  | cons t ts ih =>
    obtain ⟨u, hu, hs⟩ := Outcome.foldlM_cons_eq_ok_iff.1 hs
    have := ih (h.takes (step_eq_ok_iff.1 hu)) hs
    simpa using this

/-- A state that can be closed has read one formula, and its tokens assemble this formula. -/
theorem Reads.finish {s : Reordering} {ts post : List Token} {last? : Option Token} (h : Reads s ts)
    (hs : s.finish last? = .ok post) : ∃ f, Derives .equivalence ts f ∧ Assembles post [f] := by
  obtain ⟨hdue, hheld, rfl⟩ := finish_eq_ok_iff.1 hs
  cases h with
  | due => cases hdue
  | @placed output before ls held operands f h hf ho =>
    rw [← List.append_nil held] at h
    obtain ⟨before', ls', operands', f', heq, hw, hd, ha⟩ :=
      h.collapse hheld (Nat.le_succ_of_le (room_rank_le _)) (Nat.zero_le _) hf ho
    cases hw
    exact ⟨f', heq ▸ hd, ha⟩

/-! ## What the tokens of a formula do -/

/-- What a run over the tokens of a formula of level `l` does to every state in which such a
formula may stand. -/
def Runs (l : Level) (ts : List Token) (f : Formula) : Prop :=
  ∀ output held operands, (room held).rank ≤ l.rank → Assembles output operands →
    ∃ output' out, ts.foldlM step ⟨output, held, true⟩ = .ok ⟨output', out ++ held, false⟩ ∧
      (∀ x ∈ out, x.Forms l) ∧ Assembles (output' ++ out.map Held.token) (f :: operands)

namespace Runs

variable {k l : Level} {ts ls rs : List Token} {t o c : Token} {f r : Formula}

/-- A run may be read at a looser level. -/
theorem loosen (h : Runs k ts f) (hl : l.rank ≤ k.rank) : Runs l ts f := by
  intro output held operands hroom ho
  obtain ⟨output', out, hrun, hout, ha⟩ := h output held operands (Nat.le_trans hroom hl) ho
  exact ⟨output', out, hrun, fun x hx => (hout x hx).loosen hl, ha⟩

theorem name (ht : t.kind = .name) : Runs .primary [t] (.var t.value) := by
  intro output held operands _ ho
  refine ⟨output ++ [t], [], ?_, by simp, by simpa using ho.name ht⟩
  exact Outcome.foldlM_cons_eq_ok_iff.2 ⟨_, step_eq_ok_iff.2 (.name ht), rfl⟩

/-- The bracket keeps the operators inside apart from those outside. -/
theorem group (ho : o.kind = .opening) (h : Runs .equivalence ts f) (hc : c.kind = .closing) :
    Runs .primary (o :: (ts ++ [c])) f := by
  intro output held operands _ hs
  obtain ⟨output', out, hrun, hout, ha⟩ := h output (.bracket o :: held) operands (Nat.le_refl _) hs
  refine ⟨output' ++ out.map Held.token, [], ?_, by simp, by simpa using ha⟩
  have hclose : Takes ⟨output', out ++ .bracket o :: held, false⟩ c
      ⟨output' ++ out.map Held.token, held, false⟩ := .closing hc hout
  refine Outcome.foldlM_cons_eq_ok_iff.2 ⟨_, step_eq_ok_iff.2 (.opening ho), ?_⟩
  refine Outcome.foldlM_append_eq_ok_iff.2 ⟨_, hrun, ?_⟩
  exact Outcome.foldlM_cons_eq_ok_iff.2 ⟨_, step_eq_ok_iff.2 hclose, rfl⟩

/-- A negation is held until its operand is complete. -/
theorem not (ht : IsOperator .not t) (h : Runs .negation ts f) :
    Runs .negation (t :: ts) (.not f) := by
  intro output held operands _ ho
  obtain ⟨output', out, hrun, hout, ha⟩ :=
    h output (.operator t .not :: held) operands (Nat.le_refl _) ho
  refine ⟨output', out ++ [.operator t .not], ?_, ?_, ?_⟩
  · rw [List.append_assoc]
    exact Outcome.foldlM_cons_eq_ok_iff.2 ⟨_, step_eq_ok_iff.2 (.not ht), hrun⟩
  · intro x hx
    rcases List.mem_append.1 hx with hx | hx
    · exact hout x hx
    · cases List.mem_singleton.1 hx
      exact Nat.le_refl _
  · simpa [token] using ha.not ht

/-- A connective sends out what its first operand left behind and nothing below. -/
theorem binary (op : Connective) (hl : Runs op.firstLevel ls f) (ht : IsOperator (.binary op) t)
    (hr : Runs (Operator.binary op).operandLevel rs r) :
    Runs (Operator.binary op).level (ls ++ t :: rs) (.binary op f r) := by
  intro output held operands hroom ho
  have hfirst : (Operator.binary op).level.rank ≤ op.firstLevel.rank := by cases op <;> decide
  obtain ⟨output', out, hrun, hout, ha⟩ :=
    hl output held operands (Nat.le_trans hroom hfirst) ho
  obtain ⟨output'', out', hrun', hout', ha'⟩ := hr (output' ++ out.map Held.token)
    (.operator t (.binary op) :: held) (f :: operands) (Nat.le_refl _) ha
  refine ⟨output'', out' ++ [.operator t (.binary op)], ?_, ?_, ?_⟩
  · rw [List.append_assoc]
    exact Outcome.foldlM_append_eq_ok_iff.2 ⟨_, hrun, Outcome.foldlM_cons_eq_ok_iff.2
      ⟨_, step_eq_ok_iff.2 (.binary ht hout hroom), hrun'⟩⟩
  · have hlast : (Operator.binary op).level.rank ≤ (Operator.binary op).operandLevel.rank := by
      cases op <;> decide
    intro x hx
    rcases List.mem_append.1 hx with hx | hx
    · exact (hout' x hx).loosen hlast
    · cases List.mem_singleton.1 hx
      exact Nat.le_refl _
  · simpa [token] using ha'.binary ht

end Runs

/-- The tokens of a derived formula run at its level. -/
theorem runs_of_derives {l : Level} {ts : List Token} {f : Formula} (h : Derives l ts f) :
    Runs l ts f := by
  induction h using Derives.byLevels with
  | binary _ ht _ ihl ihr => exact .binary _ ihl ht ihr
  | loosen _ hl ih => exact ih.loosen hl
  | not ht _ ih => exact ih.not ht
  | name ht => exact .name ht
  | group ho _ hc ih => exact .group ho ih hc

end Reordering

/-- Tokens that can be reordered are derived by the grammar, and the postfix tokens assemble the
formula that is derived. -/
theorem exists_derives_of_toPostfix {ts post : List Token} (h : toPostfix ts = .ok post) :
    ∃ f, Grammar.Derives .equivalence ts f ∧ Formula.ofPostfix post = .ok f := by
  obtain ⟨s, hs, hfinish⟩ := Outcome.bind_eq_ok_iff.1 h
  have hread := Reordering.Reads.run (.due .nil .nil) hs
  obtain ⟨f, hf, ha⟩ := hread.finish hfinish
  exact ⟨f, hf, Formula.ofPostfix_eq_ok_iff.2 ha⟩

/-- Derived tokens can be reordered, and the postfix tokens assemble the formula. -/
theorem exists_toPostfix_of_derives {ts : List Token} {f : Formula}
    (h : Grammar.Derives .equivalence ts f) :
    ∃ post, toPostfix ts = .ok post ∧ Formula.ofPostfix post = .ok f := by
  obtain ⟨output, out, hrun, hout, ha⟩ := Reordering.runs_of_derives h [] [] [] (Nat.le_refl _) .nil
  refine ⟨output ++ out.map Held.token, ?_, Formula.ofPostfix_eq_ok_iff.2 ha⟩
  refine Outcome.bind_eq_ok_iff.2 ⟨_, hrun, Reordering.finish_eq_ok_iff.2 ⟨rfl, ?_, ?_⟩⟩
  · simpa using hout
  · simp

/-- Infix tokens form a formula exactly if the grammar derives it from them. -/
theorem Formula.ofInfix_eq_ok_iff {ts : List Token} {f : Formula} :
    ofInfix ts = .ok f ↔ Grammar.Derives .equivalence ts f := by
  constructor
  · intro h
    obtain ⟨post, hpost, hf⟩ := Outcome.bind_eq_ok_iff.1 h
    obtain ⟨g, hg, hg'⟩ := exists_derives_of_toPostfix hpost
    cases hf.symm.trans hg'
    exact hg
  · intro h
    obtain ⟨post, hpost, hf⟩ := exists_toPostfix_of_derives h
    exact Outcome.bind_eq_ok_iff.2 ⟨post, hpost, hf⟩

/-- Canonical tokens that form no formula are refused by a fault: what is in postfix order assembles. -/
theorem Formula.faults_ofInfix {ts : List Token} (hts : ∀ t ∈ ts, t.Canonical) :
    Outcome.Faults (ofInfix ts) := by
  refine .bind (faults_toPostfix hts) fun post hpost => ?_
  obtain ⟨f, _, hf⟩ := exists_derives_of_toPostfix hpost
  rw [hf]
  exact .ok f

end Sentential
