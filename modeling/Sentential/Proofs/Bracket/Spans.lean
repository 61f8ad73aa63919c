import Sentential.Proofs.Bracket.Depth

/-!
# Matching pairs

The scan for pairs keeps the positions of the open brackets. `Opened` says what such a list
of positions means: from each of them on, the text is balanced up to the next one. A bracket
that closes then closes the latest open one, so every pair that the scan lists encloses a balanced
text (`matched_of_mem_spans`). Behind a text the scan goes on with what the text has left open
(`spansFrom_append_openFrom`), and a balanced text leaves open what was open in front of it (`spansFrom_append`), so
the scan lists every pair around one (`mem_spans_iff`), in the order in which they close (`pairwise_spans`).
-/

namespace Sentential.Bracket

/-- The positions, latest first, hold brackets that are open at the end of the text: what stands
between one and the next, and behind the latest, is balanced. -/
inductive Opened : List Char → List Nat → Prop
  | nil {cs : List Char} : Opened cs []
  | cons {before inner : List Char} {o : Char} {opened : List Nat} (h : Opened before opened)
      (ho : isOpening o = true) (hi : Balanced inner) :
      Opened (before ++ o :: inner) (before.length :: opened)

/-- A balanced text changes nothing about what is open. -/
theorem Opened.append {cs more : List Char} {opened : List Nat} (h : Opened cs opened)
    (hm : Balanced more) : Opened (cs ++ more) opened := by
  cases h with
  | nil => exact .nil
  | cons h ho hi =>
    rw [List.append_assoc, List.cons_append]
    exact .cons h ho (hi.append hm)

/-- Every pair listed from some place in a text on encloses a balanced text. -/
theorem matched_of_mem_spansFrom {before cs : List Char} {opened : List Nat} {i j : Nat}
    (ho : Opened before opened) (h : (i, j) ∈ spansFrom before.length opened cs) :
    Matched (before ++ cs) i j := by
  induction cs generalizing before opened with
  | nil => cases h
  | cons c cs ih =>
    have hnext : before.length + 1 = (before ++ [c]).length := by simp
    rw [List.append_cons]
    unfold spansFrom at h
    split at h
    next hc =>
      rw [hnext] at h
      exact ih (.cons ho hc .nil) h
    next hc =>
      split at h
      next hclose =>
        cases ho with
        | nil =>
          simp only [hnext] at h
          exact ih .nil h
        | @cons before inner o opened ho hopen hi =>
          have hgroup : Balanced (o :: (inner ++ [c])) := .group hopen hi hclose .nil
          have happend : before ++ o :: inner ++ [c] = before ++ o :: (inner ++ [c]) := by simp
          simp only [List.mem_cons, Prod.mk.injEq] at h
          rcases h with ⟨rfl, rfl⟩ | h
          · refine ⟨before, inner, cs, o, c, by simp, hopen, hclose, hi, rfl, ?_⟩
            simp only [List.length_append, List.length_cons]
            omega
          · rw [hnext] at h
            refine ih ?_ h
            rw [happend]
            exact ho.append hgroup
      next hclose =>
        rw [hnext] at h
        exact ih (ho.append (.plain (by simpa using hc) (by simpa using hclose) .nil)) h

/-- Every pair that the scan lists encloses a balanced text. -/
theorem matched_of_mem_spans {cs : List Char} {i j : Nat} (h : (i, j) ∈ spans cs) : Matched cs i j := by
  have hnone : Opened [] [] := .nil
  exact matched_of_mem_spansFrom hnone h

theorem spansFrom_cons_of_isOpening {o : Char} (h : isOpening o = true) (pos : Nat) (opened : List Nat)
    (cs : List Char) : spansFrom pos opened (o :: cs) = spansFrom (pos + 1) (pos :: opened) cs := by
  simp [spansFrom, h]

theorem spansFrom_cons_of_isClosing {c : Char} (h : isClosing c = true) (pos i : Nat) (opened : List Nat)
    (cs : List Char) :
    spansFrom pos (i :: opened) (c :: cs) = (i, pos) :: spansFrom (pos + 1) opened cs := by
  have ho : isOpening c = false := by
    rcases isClosing_iff.1 h with rfl | rfl <;> rfl
  simp [spansFrom, h, ho]

theorem spansFrom_nil_cons_of_isClosing {c : Char} (h : isClosing c = true) (pos : Nat) (cs : List Char) :
    spansFrom pos [] (c :: cs) = spansFrom (pos + 1) [] cs := by
  have ho : isOpening c = false := by
    rcases isClosing_iff.1 h with rfl | rfl <;> rfl
  simp [spansFrom, h, ho]

theorem spansFrom_cons_of_plain {c : Char} (ho : isOpening c = false) (hc : isClosing c = false) (pos : Nat)
    (opened : List Nat) (cs : List Char) :
    spansFrom pos opened (c :: cs) = spansFrom (pos + 1) opened cs := by
  simp [spansFrom, ho, hc]

/-- The pairs of a balanced text do not depend on what is open in front of it, and it leaves that open. -/
theorem spansFrom_append {inner : List Char} (h : Balanced inner) (pos : Nat) (opened : List Nat)
    (rest : List Char) : spansFrom pos opened (inner ++ rest) =
      spansFrom pos [] inner ++ spansFrom (pos + inner.length) opened rest := by
  induction h generalizing pos opened rest with
  | nil => rfl
  | @plain c cs ho hc _ ih =>
    rw [List.cons_append, spansFrom_cons_of_plain ho hc, spansFrom_cons_of_plain ho hc, ih, List.length_cons,
      Nat.add_assoc, Nat.add_comm 1]
  | @group o c inner more ho _ hc _ ihi ihr =>
    have hplace : pos + (o :: (inner ++ c :: more)).length = pos + 1 + inner.length + 1 + more.length := by
      simp only [List.length_cons, List.length_append]
      omega
    rw [hplace, List.cons_append, List.append_assoc, List.cons_append, spansFrom_cons_of_isOpening ho,
      spansFrom_cons_of_isOpening ho, ihi, ihi, spansFrom_cons_of_isClosing hc, spansFrom_cons_of_isClosing hc,
      ihr, List.append_assoc, List.cons_append]

/-- One character adds at most one pair, which closes there, whatever text follows. -/
theorem exists_spansFrom_cons (pos : Nat) (opened : List Nat) (c : Char) :
    ∃ found left, (found = [] ∨ ∃ i, found = [(i, pos)]) ∧
      ∀ cs, spansFrom pos opened (c :: cs) = found ++ spansFrom (pos + 1) left cs := by
  cases ho : isOpening c with
  | true => exact ⟨[], pos :: opened, .inl rfl, spansFrom_cons_of_isOpening ho pos opened⟩
  | false =>
    cases hc : isClosing c with
    | false => exact ⟨[], opened, .inl rfl, spansFrom_cons_of_plain ho hc pos opened⟩
    | true =>
      cases opened with
      | nil => exact ⟨[], [], .inl rfl, spansFrom_nil_cons_of_isClosing hc pos⟩
      | cons i opened => exact ⟨[(i, pos)], opened, .inr ⟨i, rfl⟩, spansFrom_cons_of_isClosing hc pos i opened⟩

/-- The positions of the brackets that are open behind a text, latest first. -/
def openFrom (pos : Nat) (opened : List Nat) : List Char → List Nat
  | [] => opened
  | c :: cs =>
    if isOpening c then openFrom (pos + 1) (pos :: opened) cs
    else if isClosing c then openFrom (pos + 1) opened.tail cs
    else openFrom (pos + 1) opened cs

/-- Behind a text the scan goes on with the brackets that the text has left open. -/
theorem spansFrom_append_openFrom (pos : Nat) (opened : List Nat) (cs rest : List Char) :
    spansFrom pos opened (cs ++ rest) =
      spansFrom pos opened cs ++ spansFrom (pos + cs.length) (openFrom pos opened cs) rest := by
  induction cs generalizing pos opened with
  | nil => rfl
  | cons c cs ih =>
    have hplace : pos + (c :: cs).length = pos + 1 + cs.length := by
      rw [List.length_cons]
      omega
    rw [hplace, List.cons_append]
    unfold openFrom
    by_cases ho : isOpening c = true
    · rw [if_pos ho, spansFrom_cons_of_isOpening ho, spansFrom_cons_of_isOpening ho, ih]
    · rw [if_neg ho]
      by_cases hc : isClosing c = true
      · rw [if_pos hc]
        cases opened with
        | nil => rw [spansFrom_nil_cons_of_isClosing hc, spansFrom_nil_cons_of_isClosing hc, ih, List.tail_nil]
        | cons i opened =>
          rw [spansFrom_cons_of_isClosing hc, spansFrom_cons_of_isClosing hc, ih, List.tail_cons, List.cons_append]
      · have hopen : isOpening c = false := by simpa using ho
        have hclose : isClosing c = false := by simpa using hc
        rw [if_neg hc, spansFrom_cons_of_plain hopen hclose, spansFrom_cons_of_plain hopen hclose, ih]

/-- The scan lists exactly the pairs of brackets around a balanced text. -/
theorem mem_spans_iff {cs : List Char} {i j : Nat} : (i, j) ∈ spans cs ↔ Matched cs i j := by
  refine ⟨matched_of_mem_spans, ?_⟩
  rintro ⟨before, inner, after, o, c, rfl, ho, hc, hi, rfl, rfl⟩
  have hplace : 0 + before.length + 1 + inner.length = before.length + inner.length + 1 := by omega
  rw [spans, spansFrom_append_openFrom, spansFrom_cons_of_isOpening ho, spansFrom_append hi, spansFrom_cons_of_isClosing hc, hplace,
    Nat.zero_add]
  simp

/-- A pair that is listed from some place on closes behind it. -/
theorem le_of_mem_spansFrom {pos : Nat} {opened : List Nat} {cs : List Char} {span : Nat × Nat}
    (h : span ∈ spansFrom pos opened cs) : pos ≤ span.2 := by
  induction cs generalizing pos opened with
  | nil => cases h
  | cons c cs ih =>
    obtain ⟨_, left, hfound, hstep⟩ := exists_spansFrom_cons pos opened c
    rw [hstep cs] at h
    rcases hfound with rfl | ⟨i, rfl⟩
    · exact Nat.le_of_succ_le (ih h)
    · rcases List.mem_cons.1 h with rfl | h
      · exact Nat.le_refl pos
      · exact Nat.le_of_succ_le (ih h)

/-- The pairs are listed in the order in which they close. -/
theorem pairwise_spansFrom (pos : Nat) (opened : List Nat) (cs : List Char) :
    (spansFrom pos opened cs).Pairwise fun s t => s.2 < t.2 := by
  induction cs generalizing pos opened with
  | nil => exact .nil
  | cons c cs ih =>
    obtain ⟨_, left, hfound, hstep⟩ := exists_spansFrom_cons pos opened c
    rw [hstep cs]
    rcases hfound with rfl | ⟨i, rfl⟩
    · exact ih (pos + 1) left
    · exact .cons (fun span h => le_of_mem_spansFrom h) (ih (pos + 1) left)

theorem pairwise_spans (cs : List Char) : (spans cs).Pairwise fun s t => s.2 < t.2 :=
  pairwise_spansFrom 0 [] cs

/-- The text from a bracket to its partner. -/
theorem slice_append (before inner after : List Char) (o c : Char) :
    slice (before ++ o :: (inner ++ c :: after)) (before.length, before.length + inner.length + 1) =
      o :: (inner ++ [c]) := by
  have hlength : before.length + inner.length + 1 + 1 - before.length = (o :: (inner ++ [c])).length := by
    simp only [List.length_cons, List.length_append, List.length_nil]
    omega
  have happend : o :: (inner ++ c :: after) = o :: (inner ++ [c]) ++ after := by simp
  rw [slice, List.drop_left, hlength, happend, List.take_left]

/-- The text with `new` in place of the part from position `i` to position `j`, both included. -/
def replaced (cs : List Char) (span : Nat × Nat) (new : List Char) : List Char :=
  cs.take span.1 ++ (new ++ cs.drop (span.2 + 1))

/-- In place of a bracket, its partner and the text between them stands the new text. -/
theorem replaced_append (before inner after new : List Char) (o c : Char) :
    replaced (before ++ o :: (inner ++ c :: after)) (before.length, before.length + inner.length + 1) new =
      before ++ (new ++ after) := by
  have hlength : before.length + inner.length + 1 + 1 = (before ++ o :: (inner ++ [c])).length := by
    simp only [List.length_cons, List.length_append, List.length_nil]
    omega
  have happend : before ++ o :: (inner ++ c :: after) = before ++ o :: (inner ++ [c]) ++ after := by simp
  rw [replaced, List.take_left, hlength, happend, List.drop_left]

/-- The part of a text that a listed pair cuts out is a group in brackets. -/
theorem exists_group_of_mem_spans {cs : List Char} {span : Nat × Nat} (h : span ∈ spans cs) :
    ∃ before inner after o c, cs = before ++ o :: (inner ++ c :: after) ∧ isOpening o = true ∧
      isClosing c = true ∧ Balanced inner ∧ span = (before.length, before.length + inner.length + 1) := by
  obtain ⟨i, j⟩ := span
  obtain ⟨before, inner, after, o, c, rfl, ho, hc, hinner, rfl, rfl⟩ := matched_of_mem_spans h
  exact ⟨before, inner, after, o, c, rfl, ho, hc, hinner, rfl⟩

end Sentential.Bracket
