/-!
# Ranges of code points

A character class is a list of closed ranges of code points, in ascending order and
apart. `inRanges` decides membership, and its lookup stops at the first range that
lies above the code point, so a character of the first block never walks the table.
-/

namespace Sentential.Text

/-- Membership of a code point in ascending closed ranges. -/
def inRanges : List (Nat × Nat) → Nat → Bool
  | [], _ => false
  | (lo, hi) :: rest, n => if n < lo then false else n ≤ hi || inRanges rest n

/-- The ranges ascend and leave a gap between neighbours. -/
def ascending : List (Nat × Nat) → Bool
  | [] => true
  | [r] => r.1 ≤ r.2
  | r :: s :: rest => r.1 ≤ r.2 && r.2 + 1 < s.1 && ascending (s :: rest)

theorem inRanges_cons_of_lt {lo hi n : Nat} {rest : List (Nat × Nat)} (h : n < lo) :
    inRanges ((lo, hi) :: rest) n = false := by
  simp [inRanges, h]

theorem exists_of_inRanges {rs : List (Nat × Nat)} {n : Nat} (h : inRanges rs n = true) :
    ∃ r ∈ rs, r.1 ≤ n ∧ n ≤ r.2 := by
  induction rs with
  | nil => simp [inRanges] at h
  | cons r rest ih =>
    obtain ⟨lo, hi⟩ := r
    simp only [inRanges] at h
    split at h
    · simp at h
    · rename_i hlo
      rw [Bool.or_eq_true, decide_eq_true_eq] at h
      rcases h with h | h
      · exact ⟨(lo, hi), by simp, by simpa using hlo, h⟩
      · obtain ⟨r, hr, hn⟩ := ih h
        exact ⟨r, List.mem_cons_of_mem _ hr, hn⟩

end Sentential.Text
