import Mathlib.Algebra.Order.BigOperators.Group.List
import Mathlib.Algebra.Order.Group.Nat
import Mathlib.Algebra.Ring.Nat
import Sentential.Proofs.Text.Trim
import Sentential.Text.Pieces

/-!
# Joining texts and cutting them apart

Texts joined by a separator come apart again where the separator stands. If a text in between holds the separator
itself, its own pieces come out (`pieces_intercalate`). So texts without separators are determined by what they give
when they are joined (`intercalate_inj`). Blanks next to a separator go to the pieces at its
sides, and trimming the pieces removes them (`map_trim_pieces_cons`).
-/

namespace Sentential.Text

/-! ## Joined lists -/

section Joined

variable {α : Type} (sep : List α)

/-- Lists joined in two parts are joined as a whole. -/
theorem intercalate_append {xss yss : List (List α)} (hx : xss ≠ []) (hy : yss ≠ []) :
    sep.intercalate (xss ++ yss) = sep.intercalate xss ++ sep ++ sep.intercalate yss := by
  induction xss with
  | nil => contradiction
  | cons xs xss ih =>
    cases xss with
    | nil => rw [List.singleton_append, List.intercalate_cons_of_ne_nil hy, List.intercalate_singleton]
    | cons xs' xss =>
      rw [List.cons_append, List.cons_append, List.intercalate_cons_cons, ← List.cons_append, ih (by simp),
        List.intercalate_cons_cons]
      simp only [List.append_assoc]

/-- An entry of a joined list is one of a part or of the separator. -/
theorem mem_intercalate {sep : List α} {xss : List (List α)} {x : α} (h : x ∈ sep.intercalate xss) :
    x ∈ sep ∨ ∃ xs ∈ xss, x ∈ xs := by
  induction xss with
  | nil => cases h
  | cons xs xss ih =>
    cases xss with
    | nil => exact .inr ⟨xs, List.mem_cons_self, by rwa [List.intercalate_singleton] at h⟩
    | cons xs' xss =>
      rw [List.intercalate_cons_cons, List.append_assoc, List.mem_append, List.mem_append] at h
      rcases h with h | h | h
      · exact .inr ⟨xs, List.mem_cons_self, h⟩
      · exact .inl h
      · exact (ih h).imp_right fun ⟨ys, hys, hx⟩ => ⟨ys, List.mem_cons_of_mem _ hys, hx⟩

/-- A joined list holds what its parts hold, and as many separators as there are gaps between the parts. -/
theorem countP_intercalate (p : α → Bool) (xss : List (List α)) :
    (sep.intercalate xss).countP p = (xss.map (List.countP p)).sum + sep.countP p * (xss.length - 1) := by
  induction xss with
  | nil => simp
  | cons xs xss ih =>
    cases xss with
    | nil => simp
    | cons xs' xss =>
      rw [List.intercalate_cons_cons, List.countP_append, List.countP_append, ih]
      simp only [List.map_cons, List.sum_cons, List.length_cons, Nat.add_sub_cancel, Nat.mul_add, Nat.mul_one]
      omega

theorem length_intercalate (xss : List (List α)) :
    (sep.intercalate xss).length = (xss.map List.length).sum + sep.length * (xss.length - 1) := by
  have hcount := countP_intercalate sep (fun _ => true) xss
  simpa only [List.countP_true] using hcount

/-- A joined list has an entry for each gap between its parts. -/
theorem length_le_length_intercalate (hsep : sep ≠ []) (xss : List (List α)) :
    xss.length ≤ (sep.intercalate xss).length + 1 := by
  have hgaps : xss.length - 1 ≤ sep.length * (xss.length - 1) :=
    Nat.le_mul_of_pos_left _ (List.length_pos_of_ne_nil hsep)
  rw [length_intercalate]
  omega

/-- A joined list is at least as long as each of its parts. -/
theorem length_le_length_intercalate_of_mem {xss : List (List α)} {xs : List α} (h : xs ∈ xss) :
    xs.length ≤ (sep.intercalate xss).length := by
  have hsum : xs.length ≤ (xss.map List.length).sum := List.le_sum_of_mem (List.mem_map_of_mem h)
  rw [length_intercalate]
  omega

end Joined

/-! ## Pieces -/

variable {sep : Char} {cs : List Char}

/-- The pieces of a text are the parts of the list of its characters. -/
theorem pieces_eq_splitOn (sep : Char) (cs : List Char) : pieces sep cs = cs.splitOn sep := by
  induction cs with
  | nil => rfl
  | cons c cs ih =>
    rw [pieces, ih, List.splitOn_cons_eq_if_modifyHead]
    by_cases hc : c = sep
    · rw [if_pos hc, if_pos (by simpa using hc)]
    · rw [if_neg hc, if_neg (by simpa using hc)]
      obtain ⟨piece, rest, hpieces⟩ := List.exists_cons_of_ne_nil (List.splitOn_ne_nil sep cs)
      rw [hpieces]
      rfl

/-- A text without the separator is one piece. -/
theorem pieces_of_not_mem (h : sep ∉ cs) : pieces sep cs = [cs] := by
  rw [pieces_eq_splitOn, List.splitOn_eq_singleton h]

/-- A text is cut at each separator. -/
theorem pieces_append_cons (xs ys : List Char) : pieces sep (xs ++ sep :: ys) = pieces sep xs ++ pieces sep ys := by
  rw [pieces_eq_splitOn, List.splitOn_append_cons_self, ← pieces_eq_splitOn, ← pieces_eq_splitOn]

/-- There is one more piece than there are separators. -/
theorem length_pieces (sep : Char) (cs : List Char) : (pieces sep cs).length = cs.count sep + 1 := by
  rw [pieces_eq_splitOn]
  induction cs with
  | nil => rfl
  | cons c cs ih =>
    rw [List.splitOn_cons_eq_if_modifyHead, List.count_cons]
    split
    · rw [List.length_cons, ih]
    · rw [List.length_modifyHead, ih]

/-- The pieces of joined texts are the pieces of each of them. -/
theorem pieces_intercalate {parts : List (List Char)} (h : parts ≠ []) :
    pieces sep ([sep].intercalate parts) = parts.flatMap (pieces sep) := by
  induction parts with
  | nil => contradiction
  | cons part parts ih =>
    cases parts with
    | nil => simp
    | cons part' parts =>
      rw [List.intercalate_cons_cons, List.append_assoc, List.singleton_append, pieces_append_cons, ih (by simp)]
      rfl

/-- The first separator ends the text in front of it. -/
theorem append_cons_inj {xs ys us vs : List Char} (hx : sep ∉ xs) (hy : sep ∉ ys)
    (h : xs ++ sep :: us = ys ++ sep :: vs) : xs = ys ∧ us = vs := by
  have hpieces := congrArg (pieces sep) h
  rw [pieces_append_cons, pieces_append_cons, pieces_of_not_mem hx, pieces_of_not_mem hy] at hpieces
  obtain ⟨rfl, _⟩ := List.cons.inj hpieces
  exact ⟨rfl, (List.cons.inj (List.append_cancel_left h)).2⟩

/-- Texts that do not hold the first character of a separator are determined by what they give when they are joined by
it. -/
theorem intercalate_inj {gap : List Char} {xss yss : List (List Char)} (hxss : xss ≠ []) (hyss : yss ≠ [])
    (hx : ∀ xs ∈ xss, sep ∉ xs) (hy : ∀ ys ∈ yss, sep ∉ ys)
    (h : (sep :: gap).intercalate xss = (sep :: gap).intercalate yss) : xss = yss := by
  have hmem : ∀ {us vs : List Char} {uss : List (List Char)}, sep ∈ (sep :: gap).intercalate (us :: vs :: uss) := by
    intro us vs uss
    rw [List.intercalate_cons_cons]
    simp
  induction xss generalizing yss with
  | nil => contradiction
  | cons xs xss ih =>
    obtain ⟨ys, yss, rfl⟩ := List.exists_cons_of_ne_nil hyss
    have hxs := hx xs List.mem_cons_self
    have hys := hy ys List.mem_cons_self
    cases xss with
    | nil =>
      cases yss with
      | nil => rwa [List.intercalate_singleton, List.intercalate_singleton, ← List.singleton_inj] at h
      | cons ys' yss =>
        rw [List.intercalate_singleton] at h
        exact absurd (h ▸ hmem) hxs
    | cons xs' xss =>
      cases yss with
      | nil =>
        rw [List.intercalate_singleton] at h
        exact absurd (h ▸ hmem) hys
      | cons ys' yss =>
        rw [List.intercalate_cons_cons, List.intercalate_cons_cons, List.append_assoc, List.append_assoc,
          List.cons_append, List.cons_append] at h
        obtain ⟨rfl, hrest⟩ := append_cons_inj hxs hys h
        rw [ih (by simp) (by simp) (fun us hus => hx us (List.mem_cons_of_mem _ hus))
          (fun us hus => hy us (List.mem_cons_of_mem _ hus)) (List.append_cancel_left hrest)]

/-! ## Trimmed pieces -/

/-- A blank in front of a text goes to its first piece, where trimming removes it. -/
theorem map_trim_pieces_cons {b : Char} (hb : isBlank b = true) (hsep : b ≠ sep) (cs : List Char) :
    (pieces sep (b :: cs)).map trim = (pieces sep cs).map trim := by
  obtain ⟨piece, rest, hpieces⟩ := List.exists_cons_of_ne_nil (pieces_ne_nil sep cs)
  have htrim : trim (b :: piece) = trim piece := by rw [trim, trimStart, List.dropWhile_cons_of_pos hb]; rfl
  rw [pieces, if_neg hsep, hpieces]
  simp [htrim]

end Sentential.Text
