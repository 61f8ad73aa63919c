import Mathlib.Data.List.Nodup

/-!
# Dropping repetitions and sorting

`eraseDups` keeps the first occurrence of each entry, so what is left stands in the order of first
occurrence (`pairwise_idxOf_eraseDups`), and nothing stands twice. Sorting by a key is stable: the
entries with one key stay in the order in which they were (`filter_mergeSort`). So two entries of the
sorted list are ordered by their keys, and under one key as they were before (`pairwise_mergeSort`).
-/

namespace Sentential

variable {α : Type}

section Distinct

variable [BEq α] [LawfulBEq α]

/-- Entries that pass a test stand in the same order among all entries. -/
theorem idxOf_lt_of_filter {p : α → Bool} {xs : List α} {a b : α} (ha : p a = true) (hb : p b = true)
    (h : (xs.filter p).idxOf a < (xs.filter p).idxOf b) : xs.idxOf a < xs.idxOf b := by
  induction xs with
  | nil => exact h
  | cons x xs ih =>
    by_cases hx : p x = true
    · rw [List.filter_cons_of_pos hx] at h
      by_cases hxa : x = a
      · subst hxa
        by_cases hxb : x = b
        · subst hxb
          exact absurd h (Nat.lt_irrefl _)
        · simp [List.idxOf_cons_ne _ hxb]
      · by_cases hxb : x = b
        · subst hxb
          simp at h
        · rw [List.idxOf_cons_ne _ hxa, List.idxOf_cons_ne _ hxb] at h ⊢
          exact Nat.succ_lt_succ (ih (Nat.lt_of_succ_lt_succ h))
    · have hxa : x ≠ a := fun heq => hx (heq ▸ ha)
      have hxb : x ≠ b := fun heq => hx (heq ▸ hb)
      rw [List.filter_cons_of_neg hx] at h
      rw [List.idxOf_cons_ne _ hxa, List.idxOf_cons_ne _ hxb]
      exact Nat.succ_lt_succ (ih h)

/-- What is left without repetitions stands in the order of first occurrence. -/
theorem pairwise_idxOf_eraseDups (xs : List α) : xs.eraseDups.Pairwise fun a b => xs.idxOf a < xs.idxOf b := by
  match xs with
  | [] => exact .nil
  | x :: xs =>
    have hne : ∀ b ∈ (xs.filter fun y => !y == x).eraseDups, x ≠ b ∧ (!b == x) = true := by
      intro b hb
      have hb := (List.mem_filter.1 (List.mem_eraseDups.1 hb)).2
      exact ⟨fun heq => by simp [heq] at hb, hb⟩
    rw [List.eraseDups_cons, List.pairwise_cons]
    refine ⟨fun b hb => ?_, ?_⟩
    · rw [List.idxOf_cons_self, List.idxOf_cons_ne _ (hne b hb).1]
      omega
    · refine (pairwise_idxOf_eraseDups (xs.filter fun y => !y == x)).imp_of_mem fun ha hb h => ?_
      obtain ⟨hxa, ha⟩ := hne _ ha
      obtain ⟨hxb, hb⟩ := hne _ hb
      rw [List.idxOf_cons_ne _ hxa, List.idxOf_cons_ne _ hxb]
      exact Nat.succ_lt_succ (idxOf_lt_of_filter ha hb h)
termination_by xs.length
decreasing_by exact Nat.lt_succ_of_le (List.length_filter_le _ _)

/-- Dropping repetitions leaves none. -/
theorem nodup_eraseDups (xs : List α) : xs.eraseDups.Nodup := by
  refine (pairwise_idxOf_eraseDups xs).imp fun h heq => ?_
  rw [heq] at h
  exact Nat.lt_irrefl _ h

/-- Of two entries of a list ordered by `R`, that one stands first which is before the other in `R`. -/
theorem idxOf_lt_iff_of_pairwise {R : α → α → Prop} {xs : List α} (h : xs.Pairwise R)
    (hasymm : ∀ a b, R a b → ¬R b a) {a b : α} (ha : a ∈ xs) (hb : b ∈ xs) :
    xs.idxOf a < xs.idxOf b ↔ R a b := by
  have hplace : ∀ {c d : α}, c ∈ xs → d ∈ xs → xs.idxOf c < xs.idxOf d → R c d := by
    intro c d hc hd hlt
    have hrel := List.pairwise_iff_getElem.1 h _ _ (List.idxOf_lt_length_iff.2 hc)
      (List.idxOf_lt_length_iff.2 hd) hlt
    rwa [List.getElem_idxOf, List.getElem_idxOf] at hrel
  refine ⟨hplace ha hb, fun hab => ?_⟩
  by_contra hle
  rcases Nat.lt_or_eq_of_le (Nat.le_of_not_lt hle) with hlt | heq
  · exact hasymm a b hab (hplace hb ha hlt)
  · obtain rfl := (List.idxOf_inj hb).1 heq
    exact hasymm _ _ hab hab

end Distinct

section Sorting

variable {key : α → Nat} {xs : List α}

/-- Comparison of keys is transitive and total. -/
theorem decide_key_le (key : α → Nat) :
    (∀ a b c, decide (key a ≤ key b) = true → decide (key b ≤ key c) = true → decide (key a ≤ key c) = true) ∧
      ∀ a b, (decide (key a ≤ key b) || decide (key b ≤ key a)) = true := by
  simp only [Bool.or_eq_true, decide_eq_true_eq]
  refine ⟨?_, ?_⟩
  · intro a b c hab hbc
    omega
  · intro a b
    omega

/-- The entries with one key keep their order. -/
theorem filter_mergeSort (n : Nat) :
    (xs.mergeSort fun a b => decide (key a ≤ key b)).filter (fun a => key a == n) =
      xs.filter fun a => key a == n := by
  obtain ⟨htrans, htotal⟩ := decide_key_le key
  have hsame : (xs.filter fun a => key a == n).Pairwise fun a b => decide (key a ≤ key b) = true := by
    refine List.pairwise_of_forall_mem_list fun a ha b hb => ?_
    have ha := (List.mem_filter.1 ha).2
    have hb := (List.mem_filter.1 hb).2
    simp only [beq_iff_eq] at ha hb
    simp only [decide_eq_true_eq]
    omega
  have hsub := (List.sublist_mergeSort htrans htotal hsame List.filter_sublist).filter fun a => key a == n
  simp only [List.filter_filter, Bool.and_self] at hsub
  have hperm := List.mergeSort_perm xs fun a b => decide (key a ≤ key b)
  have hlength := (hperm.filter fun a => key a == n).length_eq
  exact (hsub.eq_of_length hlength.symm).symm

/-- In the sorted list a smaller key comes first, and under one key the order is the one before. -/
theorem pairwise_mergeSort {R : α → α → Prop} (h : xs.Pairwise R) :
    (xs.mergeSort fun a b => decide (key a ≤ key b)).Pairwise fun a b =>
      key a < key b ∨ key a = key b ∧ R a b := by
  obtain ⟨htrans, htotal⟩ := decide_key_le key
  rw [List.pairwise_iff_forall_sublist]
  intro a b hab
  have hle : key a ≤ key b := by
    have hpair := List.pairwise_iff_forall_sublist.1 (List.pairwise_mergeSort htrans htotal xs) hab
    simpa using hpair
  rcases Nat.lt_or_eq_of_le hle with hlt | heq
  · exact .inl hlt
  · have hsame : ([a, b].filter fun c => key c == key b) = [a, b] := by simp [heq]
    have hfilter := hab.filter fun c => key c == key b
    rw [hsame, filter_mergeSort] at hfilter
    exact .inr ⟨heq, List.pairwise_iff_forall_sublist.1 h (hfilter.trans List.filter_sublist)⟩

end Sorting

end Sentential
