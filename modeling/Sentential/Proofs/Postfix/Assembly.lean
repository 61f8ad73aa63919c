import Sentential.Grammar
import Sentential.Postfix
import Sentential.Proofs.Outcome

/-!
# Operands on the stack

`Assembles ts operands` says that postfix tokens leave these operands behind, latest first. Every
lemma here adds one token at the end, so that the operands can be followed while postfix
tokens are written.
-/

namespace Sentential

/-- The postfix tokens leave the operands on the stack, latest first. -/
def Assembles (ts : List Token) (operands : List Formula) : Prop :=
  ts.foldlM Formula.stack [] = .ok operands

namespace Assembles

variable {ts : List Token} {t : Token} {operands : List Formula} {f l r : Formula} {c : Connective}

theorem nil : Assembles [] [] := rfl

/-- What the next token does to the operands. -/
theorem snoc {operands' : List Formula} (h : Assembles ts operands)
    (hs : Formula.stack operands t = .ok operands') : Assembles (ts ++ [t]) operands' := by
  unfold Assembles at h ⊢
  rw [List.foldlM_append, h]
  exact (bind_pure _).trans hs

theorem name (h : Assembles ts operands) (ht : t.kind = .name) :
    Assembles (ts ++ [t]) (.var t.value :: operands) :=
  h.snoc (by simp [Formula.stack, ht])

theorem not (h : Assembles ts (f :: operands)) (ht : Grammar.IsOperator .not t) :
    Assembles (ts ++ [t]) (.not f :: operands) :=
  h.snoc (by simp [Formula.stack, ht.1, ht.2])

theorem binary (h : Assembles ts (r :: l :: operands)) (ht : Grammar.IsOperator (.binary c) t) :
    Assembles (ts ++ [t]) (.binary c l r :: operands) :=
  h.snoc (by simp [Formula.stack, ht.1, ht.2])

end Assembles

/-- A formula is assembled exactly if it is the one operand that is left. -/
theorem Formula.ofPostfix_eq_ok_iff {ts : List Token} {f : Formula} :
    ofPostfix ts = .ok f ↔ Assembles ts [f] := by
  unfold ofPostfix Assembles
  rw [Outcome.bind_eq_ok_iff]
  constructor
  · rintro ⟨operands, ho, hf⟩
    match operands, hf with
    | [g], hf => exact Except.ok.inj hf ▸ ho
  · intro h
    exact ⟨[f], h, rfl⟩

end Sentential
