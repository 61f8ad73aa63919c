import Mathlib.Algebra.BigOperators.Ring.Finset
import Mathlib.Data.Int.Order.Basic
import Mathlib.Tactic.LinearCombination
import Sentential.Proofs.Variables.Rows

/-!
# The order of the rows

The values of a row tell its number: read as binary digits, with 1 for false, they are the lowest bits
(`rowNumber_rowValues`), whatever the number is, and negative numbers too. The larger number belongs to
the smaller list of values in the lexicographic order (`lt_of_rowNumber_lt`). So the rows run downwards
from all true to all false, and each choice of values is one row (`assignments_canonical`).
-/

namespace Sentential.Variables

variable {bits bits' : List Bool} {names : List String}

/-- The values read as binary digits, with 1 for false. -/
def rowNumber : List Bool → Nat
  | [] => 0
  | b :: bits => (if b then 0 else 2 ^ bits.length) + rowNumber bits

theorem rowNumber_lt (bits : List Bool) : rowNumber bits < 2 ^ bits.length := by
  induction bits with
  | nil => decide
  | cons b bits ih =>
    rw [rowNumber, List.length_cons, Nat.pow_succ]
    split <;> omega

/-- Each false value counts the power of two of its place. -/
theorem rowNumber_eq_sum (bits : List Bool) :
    rowNumber bits = ∑ i ∈ Finset.range bits.length with bits[i]? = some false, 2 ^ (bits.length - 1 - i) := by
  induction bits with
  | nil => rfl
  | cons b bits ih =>
    rw [rowNumber, ih, Finset.sum_filter, Finset.sum_filter, List.length_cons, Finset.sum_range_succ', Nat.add_comm]
    have hplace : ∀ i, bits.length + 1 - 1 - (i + 1) = bits.length - 1 - i := by omega
    simp only [hplace, List.getElem?_cons_succ, List.getElem?_cons_zero]
    cases b <;> simp

/-- Of two lists of one length the one with the larger number comes earlier in the lexicographic order. -/
theorem lt_of_rowNumber_lt (hlength : bits.length = bits'.length) (h : rowNumber bits < rowNumber bits') :
    bits' < bits := by
  induction bits generalizing bits' with
  | nil =>
    obtain rfl := List.length_eq_zero_iff.1 hlength.symm
    exact absurd h (Nat.lt_irrefl _)
  | cons b bits ih =>
    obtain ⟨b', bits', rfl⟩ := List.exists_cons_of_length_eq_add_one hlength.symm
    have hrest : bits.length = bits'.length := Nat.succ.inj hlength
    have hlt := rowNumber_lt bits'
    rw [rowNumber, rowNumber, hrest] at h
    rw [List.cons_lt_cons_iff]
    by_cases hb : b' = b
    · subst hb
      exact .inr ⟨rfl, ih hrest (Nat.lt_of_add_lt_add_left h)⟩
    · -- The first value of the earlier list is false: else its number would be less than the other one.
      left
      cases b with
      | true => cases b' <;> simp_all
      | false =>
        obtain rfl : b' = true := by simpa using hb
        simp only [Bool.false_eq_true, if_false, if_true] at h
        omega

/-- The higher half of a power of two is one more bit. -/
theorem emod_two_pow_succ (index : Int) (n : Nat) :
    index % 2 ^ (n + 1) = 2 ^ n * (index / 2 ^ n % 2) + index % 2 ^ n := by
  have hpos : (0 : Int) < 2 ^ n := Int.pow_pos (by decide)
  have hlow := Int.emod_nonneg index (Int.ne_of_gt hpos)
  have hlow' := Int.emod_lt_of_pos index hpos
  have hsplit := Int.mul_ediv_add_emod index (2 ^ n)
  have hbit := Int.mul_ediv_add_emod (index / 2 ^ n) 2
  refine ((Int.ediv_emod_unique (q := index / 2 ^ n / 2) (Int.pow_pos (by decide))).2 ⟨?_, ?_, ?_⟩).2
  · linear_combination 2 ^ n * hbit + hsplit
  · rcases Int.emod_two_eq (index / 2 ^ n) with h | h <;> rw [h] <;> omega
  · rw [Int.pow_succ]
    rcases Int.emod_two_eq (index / 2 ^ n) with h | h <;> rw [h] <;> omega

/-- Of the bits of a number, a row takes the lowest ones. -/
theorem rowNumber_rowValues (index : Int) (n : Nat) : (rowNumber (rowValues index n) : Int) = index % 2 ^ n := by
  induction n with
  | zero => simp [rowValues, rowNumber]
  | succ n ih =>
    rw [rowValues, rowNumber, length_rowValues, emod_two_pow_succ, Int.shiftRight_eq_div_pow]
    push_cast
    rw [ih]
    rcases Int.emod_two_eq (index / 2 ^ n) with h | h <;> simp [h]

/-- The number of a row of the list is read off its values. -/
theorem rowNumber_rowValues_of_lt {index n : Nat} (h : index < 2 ^ n) : rowNumber (rowValues index n) = index := by
  have hnumber := rowNumber_rowValues index n
  rw [Int.emod_eq_of_lt (Int.natCast_nonneg _) (by exact_mod_cast h)] at hnumber
  exact_mod_cast hnumber

/-- The number of a row counts up to a power of two only. -/
theorem rowValues_emod (index : Int) (n : Nat) : rowValues (index % 2 ^ n) n = rowValues index n := by
  have h := rowValues_add_mul (index % 2 ^ n) (index / 2 ^ n) n
  rw [Int.emod_add_ediv_mul] at h
  exact h.symm

/-! ## The rows of a list of names -/

@[simp] theorem row_map_fst (names : List String) (index : Nat) : (row names index).map Prod.fst = names := by
  rw [row, List.map_fst_zip (by simp)]

@[simp] theorem row_map_snd (names : List String) (index : Nat) :
    (row names index).map Prod.snd = rowValues index names.length := by
  rw [row, List.map_snd_zip (by simp)]

/-- The row at a place of the list is the one with that number. -/
theorem getElem?_assignments {index : Nat} {a : Assignment} :
    (assignments names)[index]? = some a ↔ index < 2 ^ names.length ∧ row names index = a := by
  rw [assignments, List.getElem?_map, Option.map_eq_some_iff]
  simp only [List.getElem?_eq_some_iff, List.length_range, List.getElem_range, Nat.pow_eq]
  constructor
  · rintro ⟨_, ⟨hlt, rfl⟩, rfl⟩
    exact ⟨hlt, rfl⟩
  · rintro ⟨hlt, rfl⟩
    exact ⟨index, ⟨hlt, rfl⟩, rfl⟩

/-- Under distinct names, what is looked up determines the values. -/
theorem eq_map_of_lookup_zip {v : String → Bool} (hnames : names.Nodup) (hlength : bits.length = names.length)
    (h : ∀ name ∈ names, (names.zip bits).lookup name = some (v name)) : bits = names.map v := by
  induction names generalizing bits with
  | nil => exact List.length_eq_zero_iff.1 hlength
  | cons n names ih =>
    obtain ⟨b, bits, rfl⟩ := List.exists_cons_of_length_eq_add_one hlength
    obtain ⟨hn, hnames⟩ := List.nodup_cons.1 hnames
    simp only [List.zip_cons_cons, List.lookup_cons] at h
    have hhead := h n List.mem_cons_self
    rw [beq_self_eq_true] at hhead
    rw [List.map_cons, Option.some.inj hhead, ih hnames (Nat.succ.inj hlength)]
    intro name hname
    have hne : (name == n) = false := beq_eq_false_iff_ne.2 fun heq => hn (heq ▸ hname)
    have hrest := h name (List.mem_cons_of_mem _ hname)
    rwa [hne] at hrest

/-- Each choice of values is one row. -/
theorem existsUnique_row (hnames : names.Nodup) (v : String → Bool) :
    ∃! index, index < 2 ^ names.length ∧ ∀ name ∈ names, (row names index).lookup name = some (v name) := by
  obtain ⟨index, hlt, hrow⟩ := exists_row names v
  refine ⟨index, ⟨hlt, hrow⟩, ?_⟩
  rintro index' ⟨hlt', hrow'⟩
  have hvalues := eq_map_of_lookup_zip hnames (length_rowValues _ _) hrow
  have hvalues' := eq_map_of_lookup_zip hnames (length_rowValues _ _) hrow'
  rw [← rowNumber_rowValues_of_lt hlt', hvalues', ← hvalues, rowNumber_rowValues_of_lt hlt]

/-- A later row has the smaller list of values. -/
theorem pairwise_assignments (names : List String) :
    (assignments names).Pairwise fun a b => b.map Prod.snd < a.map Prod.snd := by
  rw [assignments, List.pairwise_map]
  refine List.pairwise_lt_range.imp_of_mem fun {index index'} hmem hmem' hlt => ?_
  rw [row_map_snd, row_map_snd]
  refine lt_of_rowNumber_lt (by simp) ?_
  rwa [rowNumber_rowValues_of_lt (List.mem_range.1 hmem), rowNumber_rowValues_of_lt (List.mem_range.1 hmem')]

/-- The false values of a row add up to the lowest bits of its number. -/
theorem emod_eq_sum (index : Int) (n : Nat) : index % 2 ^ n =
    ∑ i ∈ Finset.range n with (rowValues index n)[i]? = some false, (2 ^ (n - 1 - i) : Int) := by
  have hsum := rowNumber_eq_sum (rowValues index n)
  rw [length_rowValues] at hsum
  rw [← rowNumber_rowValues, hsum]
  push_cast
  rfl

/-- The assignments of distinct names are `2 ^ n` rows, one for each choice of values, from the largest to the
smallest. A row reads the lowest bits of its number only, and its false values add up to these. -/
theorem assignments_canonical (names : List String) (hnames : names.Nodup) :
    (assignments names).length = 2 ^ names.length ∧
    (∀ a ∈ assignments names, a.map Prod.fst = names) ∧
    (∀ v : String → Bool, ∃! index : Nat, ∃ a : Assignment, (assignments names)[index]? = some a ∧
      ∀ name ∈ names, a.lookup name = some (v name)) ∧
    ((assignments names).Pairwise fun a b => b.map Prod.snd < a.map Prod.snd) ∧
    ∀ (index : Int) (n : Nat), rowValues index n = rowValues (index % 2 ^ n) n ∧ index % 2 ^ n =
      ∑ i ∈ Finset.range n with (rowValues index n)[i]? = some false, (2 ^ (n - 1 - i) : Int) := by
  refine ⟨by simp [assignments], fun a ha => ?_, fun v => ?_, pairwise_assignments names,
    fun index n => ⟨(rowValues_emod index n).symm, emod_eq_sum index n⟩⟩
  · obtain ⟨index, _, rfl⟩ := mem_assignments.1 ha
    exact row_map_fst names index
  · simp only [getElem?_assignments, and_assoc, exists_and_left, exists_eq_left']
    exact existsUnique_row hnames v

/-- Two names have four rows. -/
theorem assignments_canonical_pair :
    ["p", "q"].Nodup ∧ (assignments ["p", "q"]).length = 4 ∧
      ∃! index : Nat, ∃ a : Assignment, (assignments ["p", "q"])[index]? = some a ∧
        ∀ name ∈ ["p", "q"], a.lookup name = some (name == "p") :=
  have h := assignments_canonical ["p", "q"] (by decide)
  ⟨by decide, h.1, h.2.2.1 (· == "p")⟩

end Sentential.Variables
