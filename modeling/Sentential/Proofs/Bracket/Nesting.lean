import Mathlib.Data.List.Nodup
import Mathlib.Logic.ExistsUnique
import Sentential.Proofs.Bracket.Spans
import Sentential.Proofs.Bracket.Unmatched
import Sentential.Steps

/-!
# Nested groups

In a balanced text the stack of the scan for pairs holds a bracket whenever one closes (`exists_openFrom_eq_cons`),
so that each bracket that closes ends a pair, and each one that opens begins one (`existsUnique_span`). What a bracket
closes was opened later than what stays in the stack, and whatever is opened afterwards stands behind it. Of two pairs
the one that closes later therefore lies behind the other one or around it (`pairwise_nested_spans`).
-/

namespace Sentential.Bracket

variable {cs : List Char} {pos d : Nat} {opened : List Nat} {span : Nat × Nat} {i j k : Nat} {o c : Char}

/-! ## The stack of open brackets -/

/-- As many brackets are open as the depth says. -/
theorem length_openFrom (h : depth opened.length (sides cs) = some d) : (openFrom pos opened cs).length = d := by
  fun_induction openFrom pos opened cs with
  | case1 pos opened => exact Option.some.inj h
  | case2 pos opened c cs ho ih =>
    rw [sides_cons_of_isOpening ho] at h
    exact ih h
  | case3 pos opened c cs ho hc ih =>
    rw [sides_cons_of_isClosing hc] at h
    cases opened with
    | nil => cases h
    | cons i opened => exact ih h
  | case4 pos opened c cs ho hc ih =>
    have hplain : side? c = none := side?_eq_none_iff.2 ⟨by simpa using ho, by simpa using hc⟩
    rw [sides_cons_of_plain hplain] at h
    exact ih h

/-- Where a bracket closes in a balanced text, one is open. -/
theorem exists_openFrom_eq_cons {before after : List Char} (h : firstUnbalanced (before ++ c :: after) = none)
    (hc : isClosing c = true) : ∃ i opened, openFrom 0 [] before = i :: opened := by
  rw [firstUnbalanced_eq_none_iff, sides_append, sides_cons_of_isClosing hc, depth_append] at h
  obtain ⟨d, hd, hclose⟩ := Option.bind_eq_some_iff.1 h
  have hlength : (openFrom 0 [] before).length = d := length_openFrom hd
  apply List.exists_cons_of_length_pos
  cases d with
  | zero => cases hclose
  | succ d => omega

/-! ## Pairs around each other -/

/-- A pair that is listed from some place on opens there or later, or it was open before. -/
theorem fst_of_mem_spansFrom (h : span ∈ spansFrom pos opened cs) : span.1 ∈ opened ∨ pos ≤ span.1 := by
  fun_induction spansFrom pos opened cs with
  | case1 => cases h
  | case2 pos opened c cs ho ih =>
    rcases ih h with hmem | hle
    · rcases List.mem_cons.1 hmem with heq | hmem
      · exact .inr (Nat.le_of_eq heq.symm)
      · exact .inl hmem
    · exact .inr (Nat.le_of_succ_le hle)
  | case3 pos c cs ho hc ih => exact (ih h).imp_right Nat.le_of_succ_le
  | case4 pos c cs ho hc i opened ih =>
    rcases List.mem_cons.1 h with rfl | h
    · exact .inl List.mem_cons_self
    · exact (ih h).imp (List.mem_cons_of_mem i) Nat.le_of_succ_le
  | case5 pos opened c cs ho hc ih => exact (ih h).imp_right Nat.le_of_succ_le

/-- Of two pairs listed from some place on, the one that is listed later lies behind the other one or opens in front of
it. -/
theorem pairwise_nested_spansFrom (hlt : ∀ i ∈ opened, i < pos) (hlatest : opened.Pairwise (· > ·)) :
    (spansFrom pos opened cs).Pairwise fun s t => s.2 < t.1 ∨ t.1 < s.1 := by
  fun_induction spansFrom pos opened cs with
  | case1 => exact .nil
  | case2 pos opened c cs ho ih =>
    apply ih
    · intro i hi
      rcases List.mem_cons.1 hi with rfl | hi
      · omega
      · exact Nat.lt_succ_of_lt (hlt i hi)
    · exact .cons hlt hlatest
  | case3 pos c cs ho hc ih => exact ih (by simp) .nil
  | case4 pos c cs ho hc i opened ih =>
    obtain ⟨hbefore, hlatest⟩ := List.pairwise_cons.1 hlatest
    apply List.Pairwise.cons
    · intro span hspan
      rcases fst_of_mem_spansFrom hspan with hmem | hle
      · exact .inr (hbefore span.1 hmem)
      · exact .inl (by omega)
    · exact ih (fun k hk => Nat.lt_succ_of_lt (hlt k (List.mem_cons_of_mem i hk))) hlatest
  | case5 pos opened c cs ho hc ih => exact ih (fun i hi => Nat.lt_succ_of_lt (hlt i hi)) hlatest

/-- Of two pairs, the one that closes later lies behind the other one or around it. -/
theorem pairwise_nested_spans (cs : List Char) :
    (spans cs).Pairwise fun s t => s.2 < t.2 ∧ (s.2 < t.1 ∨ t.1 < s.1) :=
  (pairwise_spans cs).and (pairwise_nested_spansFrom (by simp) .nil)

theorem Matched.lt (h : Matched cs i j) : i < j := by
  obtain ⟨before, inner, after, o, c, _, _, _, _, _, rfl⟩ := h
  omega

/-- No bracket begins two pairs. -/
theorem nodup_fst_spans (cs : List Char) : ((spans cs).map Prod.fst).Nodup := by
  rw [List.Nodup, List.pairwise_map]
  refine (pairwise_nested_spans cs).imp_of_mem ?_
  rintro ⟨i, j⟩ ⟨k, l⟩ hs ht ⟨_, hnested⟩
  have hlt := (mem_spans_iff.1 hs).lt
  simp only at hnested ⊢
  omega

/-- In a balanced text each bracket that opens begins one pair. -/
theorem existsUnique_span (h : Balanced cs) (ho : cs[i]? = some o) (hopen : isOpening o = true) :
    ∃! j, (i, j) ∈ spans cs := by
  obtain ⟨j, hbegins | hends⟩ := h.paired ho (.inl hopen)
  · refine ⟨j, mem_spans_iff.2 hbegins, fun k hk => ?_⟩
    have hpair : (i, k) = (i, j) := List.inj_on_of_nodup_map (nodup_fst_spans cs) hk (mem_spans_iff.2 hbegins) rfl
    exact congrArg Prod.snd hpair
  · obtain ⟨c, hc, hclose⟩ := hends.sides.2
    cases ho.symm.trans hc
    exact absurd ((isClosing_of_isOpening hopen).symm.trans hclose) (by decide)

/-- A balanced text has as many pairs as brackets that open. -/
theorem length_spansFrom (h : Balanced cs) (pos : Nat) : (spansFrom pos [] cs).length = cs.countP isOpening := by
  induction h generalizing pos with
  | nil => rfl
  | plain ho hc _ ih =>
    rw [spansFrom_cons_of_plain ho hc, ih, List.countP_cons_of_neg (by simp [ho])]
  | @group o c inner rest ho hi hc _ ihi ihr =>
    have hclose : ¬isOpening c = true := by
      intro hopen
      exact absurd ((isClosing_of_isOpening hopen).symm.trans hc) (by decide)
    rw [spansFrom_cons_of_isOpening ho, spansFrom_append hi, spansFrom_cons_of_isClosing hc, List.length_append,
      List.length_cons, ihi, ihr, List.countP_cons_of_pos ho, List.countP_append, List.countP_cons_of_neg hclose]
    omega

/-- The pairs are those of the brackets of a text: each is around a balanced part, each bracket that opens begins one,
and they are listed as they close, each behind or around the ones before it. -/
structure Pairs (cs : List Char) (ss : List (Nat × Nat)) : Prop where
  mem_iff : ∀ i j, (i, j) ∈ ss ↔ Matched cs i j
  existsUnique : ∀ i o, cs[i]? = some o → isOpening o = true → ∃! j, (i, j) ∈ ss
  length_eq : ss.length = cs.countP isOpening
  pairwise : ss.Pairwise fun s t => s.2 < t.2 ∧ (s.2 < t.1 ∨ t.1 < s.1)

theorem pairs_spans (h : Balanced cs) : Pairs cs (spans cs) where
  mem_iff _ _ := mem_spans_iff
  existsUnique _ _ ho hopen := existsUnique_span h ho hopen
  length_eq := length_spansFrom h 0
  pairwise := pairwise_nested_spans cs

end Sentential.Bracket

namespace Sentential.Steps

/-- The groups of a text are refused exactly if a bracket has no partner, with the position of the first one. Otherwise
they are the parts of the text from a bracket to its partner, one for each bracket that opens, and whenever a bracket
closes, the scan has an open one at hand and lists the pair of the two. -/
theorem groups_exact (source : List Char) :
    (∀ e, groups source = .error e ↔ ∃ k, Bracket.firstUnbalanced source = some k ∧ e = .fault (.unbalanced k)) ∧
    (Bracket.firstUnbalanced source = none →
      groups source = .ok ((Bracket.spans source).map (Bracket.slice source)) ∧
      Bracket.Pairs source (Bracket.spans source) ∧
      ∀ before c after, source = before ++ c :: after → Bracket.isClosing c = true →
        ∃ i opened, Bracket.openFrom 0 [] before = i :: opened ∧
          Bracket.spans source = Bracket.spans before ++
            (i, before.length) :: Bracket.spansFrom (before.length + 1) opened after) := by
  unfold groups Token.checkBalanced
  cases hbroken : Bracket.firstUnbalanced source with
  | some k =>
    refine ⟨fun e => ?_, nofun⟩
    simp [bind, Except.bind, eq_comm]
  | none =>
    refine ⟨fun e => by simp [bind, Except.bind, pure, Except.pure], fun _ => ⟨rfl, ?_, ?_⟩⟩
    · exact Bracket.pairs_spans (Bracket.firstUnbalanced_eq_none_iff_balanced.1 hbroken)
    · rintro before c after rfl hc
      obtain ⟨i, opened, hopen⟩ := Bracket.exists_openFrom_eq_cons hbroken hc
      refine ⟨i, opened, hopen, ?_⟩
      rw [Bracket.spans, Bracket.spansFrom_append_openFrom, hopen, Bracket.spansFrom_cons_of_isClosing hc,
        Nat.zero_add, Bracket.spans]

/-- A brace around two groups, one of which is closed by a brace. -/
theorem groups_exact_mixed :
    let source := ['{', '(', 'p', '}', '∧', '(', 'q', ')', ')']
    Bracket.firstUnbalanced source = none ∧
      groups source = .ok [['(', 'p', '}'], ['(', 'q', ')'], source] ∧
        Bracket.Pairs source [(1, 3), (5, 7), (0, 8)] := by
  intro source
  have hbalanced : Bracket.firstUnbalanced source = none := by decide
  have hspans : Bracket.spans source = [(1, 3), (5, 7), (0, 8)] := by decide
  have hslices : [(1, 3), (5, 7), (0, 8)].map (Bracket.slice source) = [['(', 'p', '}'], ['(', 'q', ')'], source] := by
    decide
  obtain ⟨hgroups, hpairs, _⟩ := (groups_exact source).2 hbalanced
  rw [hspans, hslices] at hgroups
  rw [hspans] at hpairs
  exact ⟨hbalanced, hgroups, hpairs⟩

end Sentential.Steps
