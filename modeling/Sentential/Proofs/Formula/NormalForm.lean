import Mathlib.Data.List.Sort
import Sentential.Formula.Unconditional
import Sentential.Proofs.Distinct
import Sentential.Proofs.Formula.Valuation

/-!
# The form without conditionals

What `unconditional` gives is `Unconditional`, at every depth and also where an operand is used twice
(`normal_unconditional`): a negation is put in front of an operand that has the form already, and
then either takes a negation away or stands in front of none (`Unconditional.negation`). The formulas
of this form are those that the pass leaves as they are (`unconditional_eq_self_iff`).
-/

namespace Sentential.Formula

variable {f g : Formula}

/-! ## The form -/

/-- The negation of a formula of this form has the form. -/
theorem Unconditional.negation (h : f.Unconditional) : f.negation.Unconditional := by
  cases f with
  | var name => exact ⟨rfl, trivial⟩
  | not a => exact h.2
  | binary op l r => exact ⟨rfl, h⟩

/-- Two formulas of this form may be joined, unless by a conditional. -/
theorem Unconditional.binary {l r : Formula} (hl : l.Unconditional) (op : Connective) (hr : r.Unconditional)
    (hop : op ≠ .implies ∧ op ≠ .iff) : (Formula.binary op l r).Unconditional :=
  ⟨hop.1, hop.2, hl, hr⟩

/-- Every part of a formula of this form has the form. -/
theorem Unconditional.of_subformula (h : f.Unconditional) (hg : g.Subformula f) : g.Unconditional := by
  induction hg with
  | refl => exact h
  | not _ ih => exact ih h.2
  | left _ ih => exact ih h.2.2.1
  | right _ ih => exact ih h.2.2.2

theorem normal_unconditional (f : Formula) : f.unconditional.Unconditional := by
  induction f with
  | var name => trivial
  | not a ih => exact ih.negation
  | binary op l r ihl ihr =>
    cases op with
    | implies => exact ihl.negation.binary .or ihr (by decide)
    | iff =>
      have hleft := ihl.negation.binary .or ihr (by decide)
      have hright := ihr.negation.binary .or ihl (by decide)
      exact hleft.binary .and hright (by decide)
    | and => exact ihl.binary .and ihr (by decide)
    | or => exact ihl.binary .or ihr (by decide)
    | xor => exact ihl.binary .xor ihr (by decide)

/-- What is no negation is negated by a sign in front of it. -/
theorem negation_of_isNegation (h : f.isNegation = false) : f.negation = not f := by
  cases f with
  | var name => rfl
  | not a => cases h
  | binary op l r => rfl

/-- A formula of this form has nothing to be expressed. -/
theorem unconditional_eq_self_iff : f.unconditional = f ↔ f.Unconditional := by
  constructor
  · intro h
    rw [← h]
    exact normal_unconditional f
  · intro h
    induction f with
    | var name => rfl
    | not a ih => rw [unconditional, ih h.2, negation_of_isNegation h.1]
    | binary op l r ihl ihr =>
      obtain ⟨himplies, hiff, hl, hr⟩ := h
      have hoperands : ∀ c, Formula.binary c l.unconditional r.unconditional = .binary c l r := by
        intro c
        rw [ihl hl, ihr hr]
      cases op with
      | implies => exact absurd rfl himplies
      | iff => exact absurd rfl hiff
      | and => exact hoperands .and
      | or => exact hoperands .or
      | xor => exact hoperands .xor

/-! ## The variables -/

theorem leaves_negation (f : Formula) : f.negation.leaves = f.leaves := by
  cases f <;> rfl

/-- Expressing the conditionals neither loses a variable nor adds one. -/
theorem mem_leaves_unconditional {name : String} : name ∈ f.unconditional.leaves ↔ name ∈ f.leaves := by
  induction f with
  | var _ => exact Iff.rfl
  | not a ih =>
    rw [unconditional, leaves_negation]
    exact ih
  | binary op l r ihl ihr =>
    have hor : name ∈ (Formula.binary op l r).unconditional.leaves ↔
        name ∈ l.unconditional.leaves ∨ name ∈ r.unconditional.leaves := by
      cases op with
      | iff =>
        simp only [unconditional, leaves, leaves_negation, List.mem_append]
        tauto
      | _ => simp [unconditional, leaves, leaves_negation]
    rw [hor, ihl, ihr, leaves, List.mem_append]

/-- The atoms depend on which variables occur, not on how often or where. -/
theorem atoms_congr (h : ∀ name, name ∈ f.leaves ↔ name ∈ g.leaves) : f.atoms = g.atoms := by
  have hperm : f.leaves.eraseDups.Perm g.leaves.eraseDups := by
    rw [List.perm_ext_iff_of_nodup (nodup_eraseDups _) (nodup_eraseDups _)]
    intro name
    rw [List.mem_eraseDups, List.mem_eraseDups]
    exact h name
  have hsorted : ∀ xs : List String, (xs.mergeSort fun a b => decide (a ≤ b)).Pairwise (· ≤ ·) := by
    intro xs
    exact List.pairwise_mergeSort' (· ≤ ·) xs
  have hsame : f.atoms.Perm g.atoms :=
    (List.mergeSort_perm _ _).trans (hperm.trans (List.mergeSort_perm _ _).symm)
  exact hsame.eq_of_pairwise' (hsorted _) (hsorted _)

/-- The form without conditionals is a normal form. No part of it is a conditional, a biconditional or a double
negation, it has the atoms of the formula, and expressing the conditionals again changes nothing. -/
theorem unconditional_normalizes (f : Formula) :
    (∀ g : Formula, g.Subformula f.unconditional →
      (∀ l r, g ≠ .binary .implies l r) ∧ (∀ l r, g ≠ .binary .iff l r) ∧ ∀ a, g ≠ .not (.not a)) ∧
    f.unconditional.atoms = f.atoms ∧ f.unconditional.unconditional = f.unconditional := by
  refine ⟨?_, ?_, ?_⟩
  · intro g hg
    have hnormal := (normal_unconditional f).of_subformula hg
    refine ⟨?_, ?_, ?_⟩
    · rintro l r rfl
      exact hnormal.1 rfl
    · rintro l r rfl
      exact hnormal.2.1 rfl
    · rintro a rfl
      cases hnormal.1
  · exact atoms_congr fun _ => mem_leaves_unconditional
  · exact unconditional_eq_self_iff.2 (normal_unconditional f)

/-- In `¬¬(¬p↔¬¬q)` the two outer signs go, and so does one of those in front of each operand of the
biconditional where its conditional in one direction negates the operand. -/
theorem unconditional_normalizes_stacked :
    let f : Formula := .not (.not (.binary .iff (.not (.var "p")) (.not (.not (.var "q")))))
    let part : Formula := .binary .or (.not (.var "q")) (.not (.var "p"))
    f.unconditional.text = "(p∨q)∧(¬q∨¬p)" ∧ part.Subformula f.unconditional ∧
      (∀ l r, part ≠ .binary .implies l r) ∧ f.unconditional.atoms = f.atoms ∧
      f.unconditional.unconditional = f.unconditional := by
  intro f part
  have hpart : part.Subformula f.unconditional := .right .refl
  obtain ⟨hparts, hatoms, hagain⟩ := unconditional_normalizes f
  exact ⟨by decide +kernel, hpart, (hparts part hpart).1, hatoms, hagain⟩

end Sentential.Formula
