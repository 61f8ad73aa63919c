import Sentential.Variables
import Sentential.Proofs.Outcome

/-!
# Accepted declarations

A declaration is accepted unchanged, and only if none of its checks finds a fault
(`validate_eq_ok_iff`); otherwise it is refused by a fault (`faults_validate`). The names of an
accepted declaration are words (`isWord_of_mem`).
-/

namespace Sentential.Variables

/-- A declaration is accepted, as it is, exactly if it has names, no check finds a fault, and there
are no more names than the ceiling allows. -/
theorem validate_eq_ok_iff {names names' : List String} {ceiling : Int} :
    validate names ceiling = .ok names' ↔ names' = names ∧ names ≠ [] ∧
      firstIllFormed [] names = none ∧ firstContained names = none ∧ (names.length : Int) ≤ ceiling := by
  unfold validate
  cases names with
  | nil => simp
  | cons name rest =>
    rw [if_neg (by simp)]
    cases firstIllFormed [] (name :: rest) with
    | some f => simp
    | none =>
      cases firstContained (name :: rest) with
      | some f => simp
      | none =>
        simp only
        split
        next h => simpa using fun _ => Int.not_le.2 h
        next h => simpa [eq_comm] using fun _ => Int.not_lt.1 h

/-- A declaration is refused by a fault. -/
theorem faults_validate (names : List String) (ceiling : Int) : Outcome.Faults (validate names ceiling) := by
  unfold validate
  split
  next => exact .error _
  next =>
    split
    next => exact .error _
    next =>
      split
      next => exact .error _
      next =>
        split
        next => exact .error _
        next => exact .ok _

/-- A declaration without an ill-formed name holds words only. -/
theorem isWord_of_firstIllFormed {seen names : List String} (h : firstIllFormed seen names = none)
    {name : String} (hn : name ∈ names) : Text.isWord name = true := by
  induction names generalizing seen with
  | nil => cases hn
  | cons n names ih =>
    unfold firstIllFormed at h
    split at h
    next => cases h
    next hw =>
      split at h
      next => cases h
      next =>
        rcases List.mem_cons.1 hn with rfl | hn
        · simpa using hw
        · exact ih h hn

/-- The names of an accepted declaration are words. -/
theorem isWord_of_mem {names names' : List String} {ceiling : Int}
    (h : validate names ceiling = .ok names') {name : String} (hn : name ∈ names') :
    Text.isWord name = true := by
  obtain ⟨rfl, _, hformed, _⟩ := validate_eq_ok_iff.1 h
  exact isWord_of_firstIllFormed hformed hn

end Sentential.Variables
