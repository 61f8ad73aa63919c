import Sentential.Proofs.Distinct
import Sentential.Proofs.Outcome
import Sentential.Steps

/-!
# Labels of steps

An expression whose brackets balance has labels: what it offers, without the expression itself and
without repetitions (`labels_eq_ok_iff`, `mem_labels_iff`). They are strictly ordered, by length and under one
length by where the expression offers them first (`pairwise_labels`), so no two are alike.
-/

namespace Sentential.Steps

/-- The text is a candidate for a label: a bracketed group, a name or a negated name. -/
def IsCandidate (source : String) (names : List String) (label : String) : Prop :=
  (∃ span ∈ Bracket.spans source.toList, label = String.ofList (Bracket.slice source.toList span)) ∨
    ∃ name ∈ names, label = name ∨ label = negated name

/-- What an expression offers as labels, in order: the groups as they close, then each name and its
negation. -/
def offered (source : String) (names : List String) : List String :=
  ((Bracket.spans source.toList).map (Bracket.slice source.toList)).map String.ofList ++
    names.flatMap fun name => [name, negated name]

/-- The label `a` comes before the label `b`: it is shorter, or as long and offered first. -/
def Before (source : String) (names : List String) (a b : String) : Prop :=
  a.length < b.length ∨
    a.length = b.length ∧ (offered source names).idxOf a < (offered source names).idxOf b

variable {source label : String} {names ls : List String}

/-- An expression has candidates exactly if its brackets balance. -/
theorem candidates_eq_ok_iff : candidates source names = .ok ls ↔
    Bracket.firstUnbalanced source.toList = none ∧ ls = offered source names := by
  unfold candidates groups Token.checkBalanced
  cases Bracket.firstUnbalanced source.toList with
  | none => exact ⟨fun h => ⟨rfl, (Except.ok.inj h).symm⟩, fun h => congrArg Except.ok h.2.symm⟩
  | some pos =>
    refine ⟨fun h => ?_, fun h => ?_⟩
    · cases h
    · cases h.1

/-- An expression has labels exactly if its brackets balance. -/
theorem labels_eq_ok_iff : labels source names = .ok ls ↔
    Bracket.firstUnbalanced source.toList = none ∧
      ls = ((offered source names).filter (· ≠ Text.trimmed source)).eraseDups.mergeSort
        fun a b => decide (a.length ≤ b.length) := by
  unfold labels
  rw [Outcome.bind_eq_ok_iff]
  constructor
  · rintro ⟨all, hall, h⟩
    obtain ⟨hb, rfl⟩ := candidates_eq_ok_iff.1 hall
    exact ⟨hb, (Except.ok.inj h).symm⟩
  · rintro ⟨hb, rfl⟩
    exact ⟨_, candidates_eq_ok_iff.2 ⟨hb, rfl⟩, rfl⟩

/-- The labels stand in their order. -/
theorem pairwise_labels (h : labels source names = .ok ls) : ls.Pairwise (Before source names) := by
  rw [(labels_eq_ok_iff.1 h).2]
  refine pairwise_mergeSort ((pairwise_idxOf_eraseDups _).imp_of_mem fun ha hb hlt => ?_)
  have ha := (List.mem_filter.1 (List.mem_eraseDups.1 ha)).2
  have hb := (List.mem_filter.1 (List.mem_eraseDups.1 hb)).2
  exact idxOf_lt_of_filter ha hb hlt

/-- No two labels come before each other. -/
theorem Before.asymm {a b : String} (h : Before source names a b) : ¬Before source names b a := by
  unfold Before at h ⊢
  omega

/-- No label stands twice. -/
theorem nodup_labels (h : labels source names = .ok ls) : ls.Nodup := by
  refine (pairwise_labels h).imp ?_
  rintro a b hab rfl
  exact hab.asymm hab

/-- What an expression offers are the candidates. -/
theorem mem_offered_iff : label ∈ offered source names ↔ IsCandidate source names label := by
  have hgroup : label ∈ ((Bracket.spans source.toList).map (Bracket.slice source.toList)).map String.ofList ↔
      ∃ span ∈ Bracket.spans source.toList, label = String.ofList (Bracket.slice source.toList span) := by
    rw [List.map_map, List.mem_map]
    exact exists_congr fun span => and_congr_right fun _ => eq_comm
  have hname : label ∈ (names.flatMap fun name => [name, negated name]) ↔
      ∃ name ∈ names, label = name ∨ label = negated name := by
    simp [List.mem_flatMap]
  rw [offered, List.mem_append, hgroup, hname]
  rfl

/-- The labels are the candidates other than the expression. -/
theorem mem_labels_iff (h : labels source names = .ok ls) :
    label ∈ ls ↔ IsCandidate source names label ∧ label ≠ Text.trimmed source := by
  rw [(labels_eq_ok_iff.1 h).2, List.mem_mergeSort, List.mem_eraseDups, List.mem_filter, mem_offered_iff,
    decide_eq_true_iff]

end Sentential.Steps
