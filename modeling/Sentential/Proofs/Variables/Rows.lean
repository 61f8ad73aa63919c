import Mathlib.Algebra.Ring.Int.Defs
import Mathlib.Algebra.Ring.Nat
import Sentential.Variables

/-!
# Rows of assignments

The rows of `n` names are numbered below `2 ^ n`. Every list of `n` values is the list of some row
(`exists_rowValues`), so every valuation agrees with a row on the names (`exists_row`), and every
row binds every name (`lookup_row_isSome`).
-/

namespace Sentential.Variables

/-- A row reads the lowest bits of its number only. -/
theorem rowValues_add_mul (index k : Int) (n : Nat) :
    rowValues (index + k * 2 ^ n) n = rowValues index n := by
  induction n generalizing k with
  | zero => rfl
  | succ n ih =>
    have hpow : k * 2 ^ (n + 1) = k * 2 * 2 ^ n := by rw [Int.pow_succ]; ac_rfl
    have hbit : (index + k * 2 ^ (n + 1)) >>> n = index >>> n + k * 2 := by
      rw [hpow, Int.shiftRight_eq_div_pow, Int.shiftRight_eq_div_pow]
      exact Int.add_mul_ediv_right _ _ (Int.pow_ne_zero (by decide))
    have hrest := ih (k * 2)
    rw [← hpow] at hrest
    simp only [rowValues, hbit, hrest]
    congr 2
    rw [Int.add_mul_emod_self_right]

@[simp] theorem length_rowValues (index : Int) (n : Nat) : (rowValues index n).length = n := by
  induction n with
  | zero => rfl
  | succ n ih => simp [rowValues, ih]

/-- Every list of values is the list of a row. -/
theorem exists_rowValues (bits : List Bool) :
    ∃ index : Nat, index < 2 ^ bits.length ∧ rowValues index bits.length = bits := by
  induction bits with
  | nil => exact ⟨0, by simp, rfl⟩
  | cons b bits ih =>
    obtain ⟨index, hlt, hrow⟩ := ih
    -- The first value is the highest bit, and true is 0.
    let high : Nat := if b then 0 else 1
    have hle : high ≤ 1 := by cases b <;> decide
    refine ⟨index + high * 2 ^ bits.length, ?_, ?_⟩
    · rw [List.length_cons, Nat.pow_succ]
      have := Nat.mul_le_mul_right (2 ^ bits.length) hle
      omega
    · have hrest := rowValues_add_mul index high bits.length
      rw [hrow] at hrest
      have hbit : ((index + high * 2 ^ bits.length : Nat) : Int) >>> bits.length = high := by
        rw [Int.shiftRight_eq_div_pow]
        have hdiv : (index + high * 2 ^ bits.length) / 2 ^ bits.length = high := by
          rw [Nat.add_mul_div_right _ _ (Nat.two_pow_pos _), Nat.div_eq_of_lt hlt, Nat.zero_add]
        exact_mod_cast hdiv
      rw [List.length_cons, rowValues, hbit]
      push_cast
      rw [hrest]
      cases b <;> rfl

/-- The values of a valuation are looked up under their names. -/
theorem lookup_zip_map (names : List String) (v : String → Bool) {name : String} (h : name ∈ names) :
    (names.zip (names.map v)).lookup name = some (v name) := by
  induction names with
  | nil => cases h
  | cons n names ih =>
    rw [List.map_cons, List.zip_cons_cons, List.lookup_cons]
    cases heq : name == n with
    | true => rw [eq_of_beq heq]
    | false => exact ih (List.mem_of_ne_of_mem (by simpa using heq) h)

/-- Every valuation agrees with a row on the names. -/
theorem exists_row (names : List String) (v : String → Bool) :
    ∃ index < 2 ^ names.length, ∀ name ∈ names, (row names index).lookup name = some (v name) := by
  obtain ⟨index, hlt, hrow⟩ := exists_rowValues (names.map v)
  rw [List.length_map] at hlt hrow
  refine ⟨index, hlt, fun name hname => ?_⟩
  rw [row, hrow]
  exact lookup_zip_map names v hname

/-- A row has a value for every name. -/
theorem lookup_row_isSome {names : List String} {index : Nat} {name : String} (h : name ∈ names) :
    ((row names index).lookup name).isSome = true := by
  rw [List.lookup_isSome_iff]
  obtain ⟨k, hk, rfl⟩ := List.getElem_of_mem h
  have hlen : k < (row names index).length := by simpa [row] using hk
  refine ⟨(row names index)[k], List.getElem_mem hlen, ?_⟩
  simp [row]

theorem mem_assignments {names : List String} {a : Assignment} :
    a ∈ assignments names ↔ ∃ index < 2 ^ names.length, row names index = a := by
  simp [assignments]

/-- To every assignment of some names there is one of other names that agrees on what both bind. -/
theorem exists_assignment_agreeing {names : List String} {a : Assignment} (ha : a ∈ assignments names)
    (others : List String) :
    ∃ b ∈ assignments others, ∀ name ∈ names, name ∈ others → b.lookup name = a.lookup name := by
  obtain ⟨index, _, rfl⟩ := mem_assignments.1 ha
  obtain ⟨index', hlt, hrow⟩ := exists_row others fun name => ((row names index).lookup name).getD false
  refine ⟨row others index', mem_assignments.2 ⟨index', hlt, rfl⟩, fun name hname hother => ?_⟩
  have hbound : ((row names index).lookup name).isSome = true := lookup_row_isSome hname
  obtain ⟨b, hb⟩ := Option.isSome_iff_exists.1 hbound
  rw [hrow name hother, hb, Option.getD_some]

end Sentential.Variables
