import Sentential.Proofs.Bracket.Spans
import Sentential.Proofs.Steps.Labels
import Sentential.Proofs.Text.Trim

/-!
# The text of a label

Labels of steps are never empty and have no blanks at their ends: a group begins and ends with a bracket,
and a name is made of letters (`trimmed_of_isCandidate`). What a label holds besides letters and the sign of the
negation, the expression holds too (`mem_of_isCandidate`).
-/

namespace Sentential.Steps

open Text (isBlank isLetter)

variable {source label name : String} {names : List String}

theorem toList_negated (name : String) : (negated name).toList = '¬' :: name.toList := by
  simp [negated, Operator.text, Operator.symbol]

/-- A label is a group in brackets, a name, or the sign of the negation and a name. -/
theorem toList_of_isCandidate (h : IsCandidate source names label) :
    (∃ before inner after o c, source.toList = before ++ o :: (inner ++ c :: after) ∧
        Bracket.isOpening o = true ∧ Bracket.isClosing c = true ∧ label.toList = o :: (inner ++ [c])) ∨
      ∃ name ∈ names, label.toList = name.toList ∨ label.toList = '¬' :: name.toList := by
  rcases h with ⟨span, hspan, rfl⟩ | ⟨name, hname, rfl | rfl⟩
  · obtain ⟨before, inner, after, o, c, hsource, ho, hc, _, rfl⟩ := Bracket.exists_group_of_mem_spans hspan
    refine .inl ⟨before, inner, after, o, c, hsource, ho, hc, ?_⟩
    rw [String.toList_ofList, hsource, Bracket.slice_append]
  · exact .inr ⟨label, hname, .inl rfl⟩
  · exact .inr ⟨name, hname, .inr (toList_negated name)⟩

theorem isBlank_of_isOpening {c : Char} (h : Bracket.isOpening c = true) : isBlank c = false := by
  rcases Bracket.isOpening_iff.1 h with rfl | rfl <;> decide

theorem isBlank_of_isClosing {c : Char} (h : Bracket.isClosing c = true) : isBlank c = false := by
  rcases Bracket.isClosing_iff.1 h with rfl | rfl <;> decide

/-- A label is not empty and has no blanks at its ends. -/
theorem trimmed_of_isCandidate (hw : ∀ name ∈ names, Text.isWord name = true) (h : IsCandidate source names label) :
    label.toList ≠ [] ∧ Text.trimmed label = label := by
  suffices label.toList ≠ [] ∧ Text.trim label.toList = label.toList from
    ⟨this.1, by rw [Text.trimmed, this.2, String.ofList_toList]⟩
  have hletter : ∀ name ∈ names, ∀ c ∈ name.toList, isBlank c = false := fun name hname c hc =>
    Text.isBlank_of_isLetter ((Text.isWord_iff.1 (hw name hname)).2 c hc)
  rcases toList_of_isCandidate h with ⟨_, inner, _, o, c, _, ho, hc, hlabel⟩ | ⟨name, hname, hlabel | hlabel⟩
  · rw [hlabel]
    refine ⟨List.cons_ne_nil _ _, Text.trim_eq_self ?_ ?_⟩
    · simpa using isBlank_of_isOpening ho
    · rw [← List.cons_append, List.getLast?_concat]
      simpa using isBlank_of_isClosing hc
  · rw [hlabel]
    exact ⟨(Text.isWord_iff.1 (hw name hname)).1, Text.trim_of_no_blank (hletter name hname)⟩
  · rw [hlabel]
    refine ⟨List.cons_ne_nil _ _, Text.trim_of_no_blank fun c hc => ?_⟩
    rcases List.mem_cons.1 hc with rfl | hc
    · decide
    · exact hletter name hname c hc

/-- A character of a label that is no letter and not the sign of the negation is one of the expression. -/
theorem mem_of_isCandidate (hw : ∀ name ∈ names, Text.isWord name = true) (h : IsCandidate source names label)
    {c : Char} (hc : c ∈ label.toList) (hletter : isLetter c = false) (hne : c ≠ '¬') : c ∈ source.toList := by
  have hname : ∀ name ∈ names, c ∉ name.toList := by
    intro name hname hmem
    rw [(Text.isWord_iff.1 (hw name hname)).2 c hmem] at hletter
    cases hletter
  rcases toList_of_isCandidate h with ⟨before, inner, after, o, d, hsource, _, _, hlabel⟩ | ⟨name, hmem, hlabel | hlabel⟩
  · rw [hlabel] at hc
    rw [hsource]
    simp only [List.mem_cons, List.mem_append, List.not_mem_nil, or_false] at hc ⊢
    tauto
  · exact absurd (hlabel ▸ hc) (hname name hmem)
  · rw [hlabel] at hc
    exact absurd ((List.mem_cons.1 hc).resolve_left hne) (hname name hmem)

end Sentential.Steps
