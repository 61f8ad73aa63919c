import Sentential.Proofs.Bracket.Depth
import Sentential.Proofs.Spelling

/-!
# Brackets without a partner

The scan for the break of balance finds the first bracket that has no partner
(`firstUnbalanced_eq_some_iff`), and none exactly if the text is balanced
(`firstUnbalanced_eq_none_iff_balanced`). `Pending` describes what has been read: balanced texts with the
open brackets between them, at the positions that the scan keeps. The break is a bracket that closes
while nothing is open, or the earliest one still open at the end. Either way the text in front of it
is balanced, so that every bracket there has its partner. Normalization keeps the sides of the brackets, and with
them the balance (`firstUnbalanced_normalize`).
-/

namespace Sentential.Bracket

variable {cs : List Char} {opened : List Nat} {i j : Nat} {c : Char}

/-- The character is a bracket of either side. -/
def IsBracket (c : Char) : Prop := isOpening c = true ∨ isClosing c = true

/-- The bracket at this position has a partner, behind it or before it. -/
def Paired (cs : List Char) (i : Nat) : Prop := ∃ j, Matched cs i j ∨ Matched cs j i

/-- At this position stands a bracket without a partner. -/
def Unmatched (cs : List Char) (i : Nat) : Prop := (∃ c, cs[i]? = some c ∧ IsBracket c) ∧ ¬Paired cs i

/-- The first position of a bracket without a partner. -/
def FirstUnmatched (cs : List Char) (i : Nat) : Prop := Unmatched cs i ∧ ∀ j < i, ¬Unmatched cs j

theorem FirstUnmatched.unique (hi : FirstUnmatched cs i) (hj : FirstUnmatched cs j) : i = j := by
  rcases Nat.lt_trichotomy i j with h | h | h
  · exact absurd hi.1 (hj.2 i h)
  · exact h
  · exact absurd hj.1 (hi.2 j h)

theorem isClosing_of_isOpening (h : isOpening c = true) : isClosing c = false := by
  rcases isOpening_iff.1 h with rfl | rfl <;> rfl

/-! ## Partners -/

/-- Partners stay partners behind another text. -/
theorem Paired.prepend (h : Paired cs i) (front : List Char) : Paired (front ++ cs) (front.length + i) := by
  have hmove : ∀ {i j : Nat}, Matched cs i j → Matched (front ++ cs) (front.length + i) (front.length + j) := by
    rintro i j ⟨before, inner, after, o, c, rfl, ho, hc, hi, rfl, rfl⟩
    exact ⟨front ++ before, inner, after, o, c, by simp, ho, hc, hi, by simp, by omega⟩
  obtain ⟨j, hj⟩ := h
  exact ⟨_, hj.imp hmove hmove⟩

/-- Partners stay partners in front of another text. -/
theorem Paired.append (h : Paired cs i) (back : List Char) : Paired (cs ++ back) i := by
  have hmove : ∀ {i j : Nat}, Matched cs i j → Matched (cs ++ back) i j := by
    rintro i j ⟨before, inner, after, o, c, rfl, ho, hc, hi, rfl, rfl⟩
    exact ⟨before, inner, after ++ back, o, c, by simp, ho, hc, hi, rfl, rfl⟩
  obtain ⟨j, hj⟩ := h
  exact ⟨j, hj.imp hmove hmove⟩

/-- The first of two partners opens and the second closes. -/
theorem Matched.sides (h : Matched cs i j) :
    (∃ o, cs[i]? = some o ∧ isOpening o = true) ∧ ∃ c, cs[j]? = some c ∧ isClosing c = true := by
  obtain ⟨before, inner, after, o, c, rfl, ho, hc, _, rfl, rfl⟩ := h
  refine ⟨⟨o, by simp, ho⟩, c, ?_, hc⟩
  have hplace : before.length + inner.length + 1 - before.length = inner.length + 1 := by omega
  rw [List.getElem?_append_right (by omega), hplace]
  simp

/-- In a balanced text every bracket has its partner. -/
theorem Balanced.paired (h : Balanced cs) (hc : cs[i]? = some c) (hb : IsBracket c) : Paired cs i := by
  induction h generalizing i with
  | nil => simp at hc
  | @plain d cs ho hclose _ ih =>
    cases i with
    | zero =>
      obtain rfl : d = c := by simpa using hc
      rcases hb with hb | hb
      · exact absurd (ho.symm.trans hb) (by decide)
      · exact absurd (hclose.symm.trans hb) (by decide)
    | succ i => exact Nat.add_comm 1 i ▸ (ih hc).prepend [d]
  | @group o d inner rest ho hi hd _ ihi ihr =>
    have hmatched : Matched (o :: (inner ++ d :: rest)) 0 (inner.length + 1) :=
      ⟨[], inner, rest, o, d, rfl, ho, hd, hi, rfl, by omega⟩
    cases i with
    | zero => exact ⟨_, .inl hmatched⟩
    | succ i =>
      rw [List.getElem?_cons_succ] at hc
      rcases Nat.lt_trichotomy i inner.length with hlt | rfl | hgt
      · rw [List.getElem?_append_left hlt] at hc
        exact Nat.add_comm 1 i ▸ ((ihi hc).append (d :: rest)).prepend [o]
      · exact ⟨_, .inr hmatched⟩
      · obtain ⟨k, rfl⟩ := Nat.exists_eq_add_of_lt hgt
        have hk : inner.length + k + 1 - inner.length = k + 1 := by omega
        rw [List.getElem?_append_right (by omega), hk, List.getElem?_cons_succ] at hc
        have hpaired := (ihr hc).prepend (o :: (inner ++ [d]))
        have hplace : (o :: (inner ++ [d])).length + k = inner.length + k + 1 + 1 := by simp; omega
        rw [hplace] at hpaired
        simpa using hpaired

/-- Every bracket that closes in a balanced text finds one open. -/
theorem Balanced.exists_matched {before after : List Char} (h : Balanced (before ++ c :: after))
    (hc : isClosing c = true) : ∃ i, Matched (before ++ c :: after) i before.length := by
  have hplace : (before ++ c :: after)[before.length]? = some c := by simp
  obtain ⟨i, hopen | hclose⟩ := h.paired hplace (.inr hc)
  · obtain ⟨o, ho, hopen⟩ := hopen.sides.1
    cases hplace.symm.trans ho
    exact absurd ((isClosing_of_isOpening hopen).symm.trans hc) (by decide)
  · exact ⟨i, hclose⟩

/-! ## What breaks the balance -/

/-- The bracket at the position breaks the balance of the text. The text in front of it is balanced, and
it closes nothing, or it opens and no bracket behind it closes more than was opened there. -/
inductive Breaks : List Char → Nat → Prop
  | closing {before after : List Char} {c : Char} (hb : Balanced before) (hc : isClosing c = true) :
      Breaks (before ++ c :: after) before.length
  | opening {before after : List Char} {o : Char} {d : Nat} (hb : Balanced before)
      (ho : isOpening o = true) (ha : depth 0 (sides after) = some d) :
      Breaks (before ++ o :: after) before.length

/-- A break is a bracket without a partner, and every bracket in front of it has one. -/
theorem Breaks.firstUnmatched (h : Breaks cs i) : FirstUnmatched cs i := by
  have hbefore : ∀ {before rest : List Char}, Balanced before → ∀ j < before.length,
      ¬Unmatched (before ++ rest) j := by
    rintro before rest hb j hj ⟨⟨c, hc, hbracket⟩, hnone⟩
    rw [List.getElem?_append_left hj] at hc
    exact hnone ((hb.paired hc hbracket).append rest)
  cases h with
  | @closing before after c hb hc =>
    have hplace : (before ++ c :: after)[before.length]? = some c := by simp
    refine ⟨⟨⟨c, hplace, .inr hc⟩, ?_⟩, hbefore hb⟩
    rintro ⟨j, hopen | ⟨front, inner, back, o, d, heq, ho, _, hi, hfront, hplace⟩⟩
    · obtain ⟨o, ho, hopen⟩ := hopen.sides.1
      cases hplace.symm.trans ho
      exact absurd ((isClosing_of_isOpening hopen).symm.trans hc) (by decide)
    · have heq : before ++ c :: after = (front ++ o :: inner) ++ d :: back := by simpa using heq
      obtain ⟨rfl, _⟩ := List.append_inj heq (by simp; omega)
      -- The partner would be open at the end of the balanced text.
      have hdepth := hb.depth_eq
      rw [sides_append, sides_cons_of_isOpening ho] at hdepth
      exact depth_append_opening_ne (t := []) (by simpa using hi.depth_eq) hdepth
  | @opening before after o d hb ho ha =>
    have hplace : (before ++ o :: after)[before.length]? = some o := by simp
    refine ⟨⟨⟨o, hplace, .inl ho⟩, ?_⟩, hbefore hb⟩
    rintro ⟨j, ⟨front, inner, back, o', c, heq, _, hc, hi, hfront, _⟩ | hclose⟩
    · obtain ⟨_, hafter⟩ := List.append_inj heq hfront.symm
      obtain ⟨_, rfl⟩ := List.cons.inj hafter
      rw [sides_append, sides_cons_of_isClosing hc, depth_append_closing hi.depth_eq] at ha
      cases ha
    · obtain ⟨c, hc, hclose⟩ := hclose.sides.2
      cases hplace.symm.trans hc
      exact absurd ((isClosing_of_isOpening ho).symm.trans hclose) (by decide)

/-- A text that opens one more bracket keeps its break. -/
theorem Breaks.append_open {inner : List Char} {o : Char} (h : Breaks cs i) (ho : isOpening o = true)
    (hi : Balanced inner) : Breaks (cs ++ o :: inner) i := by
  cases h with
  | closing hb hc =>
    rw [List.append_assoc, List.cons_append]
    exact .closing hb hc
  | @opening _ after _ d hb ho' ha =>
    have hmore : depth 0 (sides (after ++ o :: inner)) = some (d + 1) := by
      rw [sides_append, depth_append, ha, sides_cons_of_isOpening ho]
      exact depth_of_depth_zero hi.depth_eq (d + 1)
    rw [List.append_assoc, List.cons_append]
    exact .opening hb ho' hmore

/-! ## The scan -/

/-- What has been read: balanced texts with the open brackets between them, at these positions, latest
first. -/
inductive Pending : List Char → List Nat → Prop
  | nil {cs : List Char} (h : Balanced cs) : Pending cs []
  | cons {before inner : List Char} {o : Char} {opened : List Nat} (h : Pending before opened)
      (ho : isOpening o = true) (hi : Balanced inner) :
      Pending (before ++ o :: inner) (before.length :: opened)

/-- A balanced text changes nothing about what is open. -/
theorem Pending.append {more : List Char} (h : Pending cs opened) (hm : Balanced more) :
    Pending (cs ++ more) opened := by
  cases h with
  | nil h => exact .nil (h.append hm)
  | cons h ho hi =>
    rw [List.append_assoc, List.cons_append]
    exact .cons h ho (hi.append hm)

/-- The earliest bracket that is still open breaks the balance. -/
theorem Pending.breaks (h : Pending cs opened) (hlast : opened.getLast? = some i) : Breaks cs i := by
  induction h with
  | nil => cases hlast
  | @cons before _ _ opened h ho hi ih =>
    cases opened with
    | nil =>
      cases h with
      | nil hb =>
        obtain rfl : before.length = i := by simpa using hlast
        exact .opening hb ho hi.depth_eq
    | cons k more =>
      rw [List.getLast?_cons_cons] at hlast
      exact (ih hlast).append_open ho hi

/-- From any place of a text on, the scan finds no break if the text is balanced, or else what breaks
its balance. -/
theorem firstUnbalancedFrom_cases {before : List Char} (h : Pending before opened) :
    (firstUnbalancedFrom before.length opened cs = none ∧ Balanced (before ++ cs)) ∨
      ∃ i, firstUnbalancedFrom before.length opened cs = some i ∧ Breaks (before ++ cs) i := by
  induction cs generalizing before opened with
  | nil =>
    rw [List.append_nil]
    cases hlast : opened.getLast? with
    | none =>
      obtain rfl := List.getLast?_eq_none_iff.1 hlast
      cases h with
      | nil hb => exact .inl ⟨rfl, hb⟩
    | some i => exact .inr ⟨i, hlast, h.breaks hlast⟩
  | cons c cs ih =>
    have hnext : before.length + 1 = (before ++ [c]).length := by simp
    unfold firstUnbalancedFrom
    rw [List.append_cons, hnext]
    split
    next ho => exact ih (.cons h ho .nil)
    next ho =>
      split
      next hc =>
        cases h with
        | nil hb =>
          rw [List.append_assoc, List.singleton_append]
          exact .inr ⟨_, rfl, .closing hb hc⟩
        | @cons front inner o opened h hopen hi =>
          have hgroup : Balanced (o :: (inner ++ [c])) := .group hopen hi hc .nil
          refine ih ?_
          rw [List.append_assoc, List.cons_append]
          exact h.append hgroup
      next hc =>
        have hplain : Balanced [c] := .plain (by simpa using ho) (by simpa using hc) .nil
        exact ih (h.append hplain)

/-- A text is balanced, or the scan finds what breaks its balance. -/
theorem firstUnbalanced_cases (cs : List Char) : (firstUnbalanced cs = none ∧ Balanced cs) ∨
    ∃ i, firstUnbalanced cs = some i ∧ Breaks cs i :=
  firstUnbalancedFrom_cases (.nil .nil)

/-- The scan finds no break exactly in balanced texts. -/
theorem firstUnbalanced_eq_none_iff_balanced : firstUnbalanced cs = none ↔ Balanced cs := by
  refine ⟨fun h => ?_, fun h => firstUnbalanced_eq_none_iff.2 h.depth_eq⟩
  rcases firstUnbalanced_cases cs with ⟨_, hb⟩ | ⟨i, hi, _⟩
  · exact hb
  · cases h.symm.trans hi

/-- The scan finds the first bracket without a partner. -/
theorem firstUnbalanced_eq_some_iff : firstUnbalanced cs = some i ↔ FirstUnmatched cs i := by
  rcases firstUnbalanced_cases cs with ⟨hnone, hb⟩ | ⟨j, hj, hbreaks⟩
  · rw [hnone]
    refine iff_of_false (by simp) ?_
    rintro ⟨⟨⟨c, hc, hbracket⟩, hpaired⟩, _⟩
    exact hpaired (hb.paired hc hbracket)
  · rw [hj, Option.some_inj]
    exact ⟨fun h => h ▸ hbreaks.firstUnmatched, hbreaks.firstUnmatched.unique⟩

/-- The scan finds no break exactly if no bracket is without a partner. -/
theorem firstUnbalanced_eq_none_iff_not_unmatched : firstUnbalanced cs = none ↔ ∀ i, ¬Unmatched cs i := by
  constructor
  · rintro h i ⟨⟨c, hc, hbracket⟩, hnone⟩
    exact hnone ((firstUnbalanced_eq_none_iff_balanced.1 h).paired hc hbracket)
  · intro h
    apply Option.eq_none_iff_forall_ne_some.2
    intro i hi
    exact h i (firstUnbalanced_eq_some_iff.1 hi).1

/-- A text is balanced before normalization exactly if it is afterwards. -/
theorem firstUnbalanced_normalize : firstUnbalanced (Spelling.normalize cs) = none ↔ firstUnbalanced cs = none := by
  rw [firstUnbalanced_eq_none_iff, firstUnbalanced_eq_none_iff, Spelling.sides_normalize]

/-- The scan finds nothing exactly if every bracket has its partner, and otherwise the first bracket, of either side,
that has none. Whether it finds something is the same before and after normalization. -/
theorem first_unmatched_found (cs : List Char) :
    (firstUnbalanced cs = none ↔ ∀ i, ¬Unmatched cs i) ∧
    (∀ i, firstUnbalanced cs = some i ↔ Unmatched cs i ∧ ∀ j < i, ¬Unmatched cs j) ∧
    (firstUnbalanced cs = none ↔ firstUnbalanced (Spelling.normalize cs) = none) :=
  ⟨firstUnbalanced_eq_none_iff_not_unmatched, fun _ => firstUnbalanced_eq_some_iff, firstUnbalanced_normalize.symm⟩

/-- A brace may close what a parenthesis opens. The first bracket without a partner is the one that closes nothing, and
not the one that is left open. -/
example : firstUnbalanced ['(', 'p', '}', ')', '{'] = some 3 := by decide

end Sentential.Bracket
