import Mathlib.Data.List.DropRight
import Sentential.Text.Blank

/-!
# Trimming

A text without blanks at its ends is not changed by trimming it again (`trimmed_trimmed`), and trimming
leaves nothing exactly of a text of blanks (`trim_eq_nil_iff`). Blanks that are put at either end make no
difference (`trim_append_left`, `trim_append_right`).
-/

namespace Sentential.Text

/-- Removing blanks at the end does not bring one to the front. -/
theorem trimStart_trim (cs : List Char) : trimStart (trim cs) = trim cs := by
  have hpre : trim cs <+: trimStart cs := List.rdropWhile_prefix isBlank (trimStart cs)
  refine List.dropWhile_eq_self_iff.2 fun hpos => ?_
  have hlen : 0 < (trimStart cs).length := Nat.lt_of_lt_of_le hpos hpre.length_le
  rw [hpre.getElem hpos]
  exact List.dropWhile_get_zero_not isBlank cs hlen

/-- A trimmed text has no blanks at its end. -/
theorem trimEnd_trim (cs : List Char) : trimEnd (trim cs) = trim cs := List.rdropWhile_idempotent isBlank (trimStart cs)

theorem trim_trim (cs : List Char) : trim (trim cs) = trim cs := by
  conv_lhs => rw [trim, trimStart_trim]
  exact trimEnd_trim cs

theorem trimmed_trimmed (s : String) : trimmed (trimmed s) = trimmed s := by
  rw [trimmed, trimmed, String.toList_ofList, trim_trim]

/-- A text that begins and ends with characters that are not blank stays as it is. -/
theorem trim_eq_self {cs : List Char} (hfirst : ∀ c ∈ cs.head?, isBlank c = false)
    (hlast : ∀ c ∈ cs.getLast?, isBlank c = false) : trim cs = cs := by
  have hstart : trimStart cs = cs := by
    cases cs with
    | nil => rfl
    | cons c cs => exact List.dropWhile_cons_of_neg (by simp [hfirst c rfl])
  rw [trim, hstart]
  refine List.rdropWhile_eq_self_iff.2 fun hne => ?_
  simp [hlast _ (List.getLast?_eq_getLast_of_ne_nil hne)]

/-- A text without blanks stays as it is. -/
theorem trim_of_no_blank {cs : List Char} (h : ∀ c ∈ cs, isBlank c = false) : trim cs = cs :=
  trim_eq_self (fun c hc => h c (List.mem_of_mem_head? hc)) fun c hc => h c (List.mem_of_mem_getLast? hc)

variable {bs cs : List Char}

/-- Blanks at the end do not count at the end. -/
theorem trimEnd_append_right (h : ∀ b ∈ bs, isBlank b = true) : trimEnd (cs ++ bs) = trimEnd cs := by
  have hreverse : ∀ b ∈ bs.reverse, isBlank b = true := fun b hb => h b (List.mem_reverse.1 hb)
  rw [trimEnd, List.reverse_append, List.dropWhile_append_of_pos hreverse]
  rfl

/-- A text keeps what is in front of a character that is not blank. -/
theorem trimEnd_append {c : Char} (hc : c ∈ cs) (hblank : isBlank c = false) (xs : List Char) :
    trimEnd (xs ++ cs) = xs ++ trimEnd cs := by
  have hne : cs.reverse.dropWhile isBlank ≠ [] := by
    intro hnil
    rw [List.dropWhile_eq_nil_iff.1 hnil c (List.mem_reverse.2 hc)] at hblank
    cases hblank
  rw [trimEnd, List.reverse_append, List.dropWhile_append, if_neg (by simpa using hne), List.reverse_append,
    List.reverse_reverse]
  rfl

/-- Blanks in front of a text are trimmed. -/
theorem trim_append_left (h : ∀ b ∈ bs, isBlank b = true) : trim (bs ++ cs) = trim cs := by
  rw [trim, trimStart, List.dropWhile_append_of_pos h]
  rfl

/-- Blanks behind a text are trimmed. -/
theorem trim_append_right (h : ∀ b ∈ bs, isBlank b = true) : trim (cs ++ bs) = trim cs := by
  rw [trim, trim, trimStart, trimStart, List.dropWhile_append]
  split
  next hempty =>
    have hcs : cs.dropWhile isBlank = [] := by simpa using hempty
    rw [hcs, List.dropWhile_eq_nil_iff.2 h]
  next => exact trimEnd_append_right h

/-- Trimming the end first makes no difference. -/
theorem trim_trimEnd (cs : List Char) : trim (trimEnd cs) = trim cs := by
  have hcut : trimEnd cs ++ cs.rtakeWhile isBlank = cs := List.rdropWhile_append_rtakeWhile
  rw [← trim_append_right fun b hb => List.mem_rtakeWhile_imp hb, hcut]

/-- Nothing is left exactly of a text of blanks. -/
theorem trim_eq_nil_iff {cs : List Char} : trim cs = [] ↔ ∀ c ∈ cs, isBlank c = true := by
  have hend : trim cs = [] ↔ ∀ c ∈ trimStart cs, isBlank c = true := List.rdropWhile_eq_nil_iff
  have htwice : trimStart (trimStart cs) = [] ↔ ∀ c ∈ trimStart cs, isBlank c = true := List.dropWhile_eq_nil_iff
  have hsame : trimStart (trimStart cs) = trimStart cs := List.dropWhile_idempotent isBlank cs
  have hstart : trimStart cs = [] ↔ ∀ c ∈ cs, isBlank c = true := List.dropWhile_eq_nil_iff
  rw [hsame] at htwice
  exact (hend.trans htwice.symm).trans hstart

/-- A text is blank exactly if it is blank without the blanks at its ends. -/
theorem isBlankText_trimmed (s : String) : isBlankText (trimmed s) = isBlankText s := by
  rw [Bool.eq_iff_iff, isBlankText, isBlankText, List.all_eq_true, List.all_eq_true, ← trim_eq_nil_iff,
    ← trim_eq_nil_iff, trimmed, String.toList_ofList, trim_trim]

end Sentential.Text
