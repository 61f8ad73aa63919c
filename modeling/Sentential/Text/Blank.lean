import Sentential.Text.Letter

/-!
# Blank characters

The blanks separate tokens and are removed at the ends of names and expressions. They
are U+0009 to U+000D, U+001C to U+0020, and the blanks of the Unicode space
separators, the next-line character and the line and paragraph separators. The zero-width
space, the Mongolian vowel separator and the byte order mark are no blanks.
No blank is a letter.
-/

namespace Sentential.Text

/-- The blank characters, as ascending ranges. -/
def blankRanges : List (Nat × Nat) :=
  [(0x09, 0x0D), (0x1C, 0x20), (0x85, 0x85), (0xA0, 0xA0), (0x1680, 0x1680), (0x2000, 0x200A),
   (0x2028, 0x2029), (0x202F, 0x202F), (0x205F, 0x205F), (0x3000, 0x3000)]

/-- Membership in the blanks. -/
def isBlank (c : Char) : Bool := inRanges blankRanges c.toNat

/-- A text without its leading blanks. -/
def trimStart (cs : List Char) : List Char := cs.dropWhile isBlank

/-- A text without its trailing blanks. -/
def trimEnd (cs : List Char) : List Char := (cs.reverse.dropWhile isBlank).reverse

/-- A text without the blanks at either end. -/
def trim (cs : List Char) : List Char := trimEnd (trimStart cs)

/-- The text `s` without the blanks at either end. -/
def trimmed (s : String) : String := String.ofList (trim s.toList)

/-- A text of blanks only, or of nothing, holds no formula. -/
def isBlankText (s : String) : Bool := s.toList.all isBlank

theorem blankRanges_ascending : ascending blankRanges = true := by decide

/-- No blank is a letter, so a run of letters ends at a blank. -/
theorem isLetter_of_isBlank {c : Char} (h : isBlank c = true) : isLetter c = false := by
  obtain ⟨r, hr, hlo, hhi⟩ := exists_of_inRanges h
  have hall : (blankRanges.all fun r => decide (r.2 < 0x10000) &&
      (List.range (r.2 + 1 - r.1)).all fun k => !inRanges letterRangesBasic (r.1 + k)) = true := by
    decide +kernel
  have hr := List.all_eq_true.1 hall r hr
  simp only [Bool.and_eq_true, decide_eq_true_eq] at hr
  have hk := List.all_eq_true.1 hr.2 (c.toNat - r.1) (List.mem_range.2 (by omega))
  rw [show r.1 + (c.toNat - r.1) = c.toNat by omega] at hk
  rw [isLetter, if_pos (by omega)]
  simpa using hk

theorem isBlank_of_isLetter {c : Char} (h : isLetter c = true) : isBlank c = false := by
  cases hb : isBlank c with
  | false => rfl
  | true => rw [isLetter_of_isBlank hb] at h; cases h

/-- A text that begins with a character that is not blank holds more than blanks. -/
theorem isBlankText_of_toList {s : String} {c : Char} {cs : List Char} (hs : s.toList = c :: cs)
    (hc : isBlank c = false) : isBlankText s = false := by
  rw [isBlankText, hs, List.all_cons, hc, Bool.false_and]

end Sentential.Text
