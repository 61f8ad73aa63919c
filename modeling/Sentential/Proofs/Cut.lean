/-!
# Cutting a list where a test first fails

`takeWhile` and `dropWhile` cut a list in two. The first part passes the test, and the second part is empty
or begins with an entry that fails it; these two facts determine the cut.
-/

namespace Sentential

variable {α : Type} {q : α → Bool}

/-- A list is cut where a test first fails. -/
theorem takeWhile_dropWhile_append {p k : List α} (hp : ∀ x ∈ p, q x = true)
    (hk : ∀ x ∈ k.head?, q x = false) : (p ++ k).takeWhile q = p ∧ (p ++ k).dropWhile q = k := by
  rw [List.takeWhile_append_of_pos hp, List.dropWhile_append_of_pos hp]
  cases k with
  | nil => simp
  | cons x k => simp [hk x rfl]

/-- A part whose first entry fails the test adds nothing to the cut of the part in front of it. -/
theorem takeWhile_append_of_head? (xs : List α) {ys : List α} (hys : ∀ y ∈ ys.head?, q y = false) :
    (xs ++ ys).takeWhile q = xs.takeWhile q := by
  have hnone : ys.takeWhile q = [] := by
    have hcut := (takeWhile_dropWhile_append (fun x hx => absurd hx List.not_mem_nil) hys).1
    rwa [List.nil_append] at hcut
  rw [List.takeWhile_append, hnone, List.append_nil]
  split
  next h => exact ((List.takeWhile_prefix q).eq_of_length h).symm
  next => rfl

/-- Every list has such a cut. -/
theorem exists_cut (q : α → Bool) (xs : List α) :
    ∃ p k, xs = p ++ k ∧ (∀ x ∈ p, q x = true) ∧ (∀ x ∈ k.head?, q x = false) := by
  refine ⟨xs.takeWhile q, xs.dropWhile q, List.takeWhile_append_dropWhile.symm, ?_, ?_⟩
  · exact List.all_eq_true.1 List.all_takeWhile
  · intro x hx
    have h := List.head?_dropWhile_not q xs
    rwa [Option.mem_def.1 hx] at h

end Sentential
