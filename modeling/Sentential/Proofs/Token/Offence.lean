import Sentential.Proofs.Token.Scan

/-!
# Offending places of a text

A text has no tokens because of one of its places: a run of letters, as long as it goes, that is no
declared name, or a character that is neither a letter nor a blank nor a symbol (`Offends`). The scan
fails exactly if there is such a place, and it reports the leftmost one (`scan_eq_error_iff`). The induction is on what
is still to be read; what has been read says whether a run of letters goes on, and no place in it offends.
-/

namespace Sentential.Token

/-- The place of a text at which no token can be read, with the fault that reports it. -/
inductive Offends (declared : List String) : List Char → Nat → Fault → Prop
  | run {before run after : List Char} (hne : run ≠ []) (hrun : ∀ c ∈ run, Text.isLetter c = true)
      (hbefore : ∀ c ∈ before.getLast?, Text.isLetter c = false)
      (hafter : ∀ c ∈ after.head?, Text.isLetter c = false) (hd : String.ofList run ∉ declared) :
      Offends declared (before ++ (run ++ after)) before.length
        (.undeclared (String.ofList run) before.length)
  | character {before after : List Char} {c : Char} (hl : Text.isLetter c = false)
      (hb : Text.isBlank c = false) (hop : ∀ op : Operator, c ≠ op.symbol) (hopen : c ≠ '(') (hclose : c ≠ ')') :
      Offends declared (before ++ c :: after) before.length (.invalidCharacter c before.length)

/-- The leftmost place of a text at which no token can be read. -/
def FirstOffends (declared : List String) (cs : List Char) (i : Nat) (f : Fault) : Prop :=
  Offends declared cs i f ∧ ∀ j < i, ∀ g, ¬Offends declared cs j g

variable {declared : List String} {inRun : Bool} {before cs : List Char} {c : Char} {i : Nat} {f : Fault}

theorem Offends.exists_split (h : Offends declared cs i f) :
    ∃ before c rest, cs = before ++ c :: rest ∧ before.length = i := by
  cases h with
  | @run before run after hne _ _ _ _ =>
    obtain ⟨c, run, rfl⟩ := List.exists_cons_of_ne_nil hne
    exact ⟨before, c, run ++ after, rfl, rfl⟩
  | character _ _ _ _ _ => exact ⟨_, _, _, rfl, rfl⟩

/-- What makes the place of a character offend: a run of letters that begins there, or the character. -/
theorem offends_iff : Offends declared (before ++ c :: cs) before.length f ↔
    (Text.isLetter c = true ∧ (∀ d ∈ before.getLast?, Text.isLetter d = false) ∧
      String.ofList (c :: cs.takeWhile Text.isLetter) ∉ declared ∧
      f = .undeclared (String.ofList (c :: cs.takeWhile Text.isLetter)) before.length) ∨
    (Text.isLetter c = false ∧ Text.isBlank c = false ∧ symbolKind? c = none ∧
      f = .invalidCharacter c before.length) := by
  constructor
  · intro h
    generalize htext : before ++ c :: cs = text at h
    generalize hplace : before.length = place at h
    cases h with
    | @run front run after hne hrun hbefore hafter hd =>
      obtain ⟨rfl, hrest⟩ := List.append_inj htext hplace
      obtain ⟨d, run, rfl⟩ := List.exists_cons_of_ne_nil hne
      obtain ⟨rfl, rfl⟩ := List.cons.inj hrest
      have hletters : ∀ d ∈ run, Text.isLetter d = true := fun d hd => hrun d (List.mem_cons_of_mem _ hd)
      have htake : (run.append after).takeWhile Text.isLetter = run :=
        (takeWhile_dropWhile_append hletters hafter).1
      rw [htake]
      exact .inl ⟨hrun c List.mem_cons_self, hbefore, hd, rfl⟩
    | @character front after d hl hb hop hopen hclose =>
      obtain ⟨rfl, hrest⟩ := List.append_inj htext hplace
      obtain ⟨rfl, rfl⟩ := List.cons.inj hrest
      exact .inr ⟨hl, hb, symbolKind?_eq_none_iff.2 ⟨hop, hopen, hclose⟩, rfl⟩
  · rintro (⟨hl, hbefore, hd, rfl⟩ | ⟨hl, hb, hs, rfl⟩)
    · obtain ⟨run, after, rfl, hrun, hafter⟩ := exists_cut Text.isLetter cs
      rw [(takeWhile_dropWhile_append hrun hafter).1] at hd ⊢
      exact .run (List.cons_ne_nil c run) (List.forall_mem_cons.2 ⟨hl, hrun⟩) hbefore hafter hd
    · obtain ⟨hop, hopen, hclose⟩ := symbolKind?_eq_none_iff.1 hs
      exact .character hl hb hop hopen hclose

/-- A place offends by one fault only. -/
theorem Offends.unique {g : Fault} (hf : Offends declared cs i f) (hg : Offends declared cs i g) : f = g := by
  obtain ⟨before, c, rest, rfl, rfl⟩ := hf.exists_split
  rcases offends_iff.1 hf with ⟨hl, _, _, rfl⟩ | ⟨hl, _, _, rfl⟩
  · rcases offends_iff.1 hg with ⟨_, _, _, rfl⟩ | ⟨hl', _⟩
    · rfl
    · exact absurd (hl'.symm.trans hl) (by decide)
  · rcases offends_iff.1 hg with ⟨hl', _⟩ | ⟨_, _, _, rfl⟩
    · exact absurd (hl.symm.trans hl') (by decide)
    · rfl

theorem FirstOffends.unique {j : Nat} {g : Fault} (hf : FirstOffends declared cs i f)
    (hg : FirstOffends declared cs j g) : f = g := by
  rcases Nat.lt_trichotomy i j with h | rfl | h
  · exact absurd hf.1 (hg.2 i h f)
  · exact hf.1.unique hg.1
  · exact absurd hg.1 (hf.2 j h g)

/-- The scan stops at a place that offends, and it goes on behind any other. -/
theorem scan_cons_cases (hrun : inRun = true ↔ ∃ d ∈ before.getLast?, Text.isLetter d = true) :
    (∃ f, Offends declared (before ++ c :: cs) before.length f ∧
      scan declared inRun before.length (c :: cs) = .error (.fault f)) ∨
    ((∀ f, ¬Offends declared (before ++ c :: cs) before.length f) ∧ ∃ g : List Token → List Token,
      scan declared inRun before.length (c :: cs) =
        g <$> scan declared (Text.isLetter c) (before.length + 1) cs) := by
  simp only [offends_iff]
  rw [scan]
  split
  next hb =>
    have hl := Text.isLetter_of_isBlank hb
    exact .inr ⟨by simp [hb, hl], id, by rw [hl, id_map]⟩
  next hb =>
    split
    next hl =>
      split
      next hin =>
        obtain ⟨d, hd, hletter⟩ := hrun.1 hin
        refine .inr ⟨?_, id, by rw [hl, id_map]⟩
        rintro f (⟨_, hbefore, _⟩ | ⟨hno, _⟩)
        · exact absurd ((hbefore d hd).symm.trans hletter) (by decide)
        · exact absurd (hno.symm.trans hl) (by decide)
      next hin =>
        have hbefore : ∀ d ∈ before.getLast?, Text.isLetter d = false := by
          intro d hd
          by_contra hletter
          exact hin (hrun.2 ⟨d, hd, by simpa using hletter⟩)
        simp only
        split
        next hn =>
          refine .inr ⟨?_, _, by rw [hl]⟩
          rintro f (⟨_, _, hd, _⟩ | ⟨hno, _⟩)
          · exact hd hn
          · exact absurd (hno.symm.trans hl) (by decide)
        next hn => exact .inl ⟨_, .inl ⟨hl, hbefore, hn, rfl⟩, rfl⟩
    next hl =>
      have hl : Text.isLetter c = false := by simpa using hl
      split
      next kind hk =>
        exact .inr ⟨by simp [hl, hk], _, by rw [hl]⟩
      next hk =>
        exact .inl ⟨_, .inr ⟨hl, by simpa using hb, hk, rfl⟩, rfl⟩

/-- From any place on in front of which nothing offends, the scan reads the rest of the text or reports
the leftmost place that offends. -/
theorem scan_cases (hrun : inRun = true ↔ ∃ d ∈ before.getLast?, Text.isLetter d = true)
    (hclean : ∀ j < before.length, ∀ g, ¬Offends declared (before ++ cs) j g) :
    (∃ ts, scan declared inRun before.length cs = .ok ts ∧ ∀ j g, ¬Offends declared (before ++ cs) j g) ∨
      ∃ i f, scan declared inRun before.length cs = .error (.fault f) ∧
        FirstOffends declared (before ++ cs) i f := by
  induction cs generalizing before inRun with
  | nil =>
    refine .inl ⟨[], rfl, fun j g h => hclean j ?_ g h⟩
    obtain ⟨front, c, rest, heq, rfl⟩ := h.exists_split
    have hlength := congrArg List.length heq
    simp only [List.length_append, List.length_cons, List.length_nil] at hlength
    omega
  | cons c cs ih =>
    rcases scan_cons_cases hrun with ⟨f, hf, hscan⟩ | ⟨hnone, g, hscan⟩
    · exact .inr ⟨_, f, hscan, hf, hclean⟩
    · have hrun' : Text.isLetter c = true ↔ ∃ d ∈ (before ++ [c]).getLast?, Text.isLetter d = true := by
        simp
      have hclean' : ∀ j < (before ++ [c]).length, ∀ f, ¬Offends declared (before ++ [c] ++ cs) j f := by
        intro j hj
        rw [← List.append_cons]
        rw [List.length_append, List.length_singleton] at hj
        rcases Nat.lt_succ_iff_lt_or_eq.1 hj with hj | rfl
        · exact hclean j hj
        · exact hnone
      have hnext : (before ++ [c]).length = before.length + 1 := by simp
      have hrest := ih hrun' hclean'
      rw [hnext, ← List.append_cons] at hrest
      rw [hscan]
      rcases hrest with ⟨ts, hts, hall⟩ | ⟨i, f, hf, hfirst⟩
      · exact .inl ⟨g ts, by rw [hts]; rfl, hall⟩
      · exact .inr ⟨i, f, by rw [hf]; rfl, hfirst⟩

/-- A text scans, or the scan reports the leftmost place that offends. -/
theorem scan_start_cases (declared : List String) (cs : List Char) :
    (∃ ts, scan declared false 0 cs = .ok ts ∧ ∀ j g, ¬Offends declared cs j g) ∨
      ∃ i f, scan declared false 0 cs = .error (.fault f) ∧ FirstOffends declared cs i f := by
  have hrun : false = true ↔ ∃ d ∈ ([] : List Char).getLast?, Text.isLetter d = true := by simp
  exact scan_cases hrun fun j hj => absurd hj (Nat.not_lt_zero j)

/-- The scan reports the leftmost place that offends. -/
theorem scan_eq_error_iff {e : Failure} : scan declared false 0 cs = .error e ↔
    ∃ i f, e = .fault f ∧ FirstOffends declared cs i f := by
  rcases scan_start_cases declared cs with ⟨ts, hts, hall⟩ | ⟨i, f, hscan, hfirst⟩
  · rw [hts]
    refine iff_of_false (by simp) ?_
    rintro ⟨i, f, _, hf⟩
    exact hall i f hf.1
  · rw [hscan]
    constructor
    · intro h
      exact ⟨i, f, (Except.error.inj h).symm, hfirst⟩
    · rintro ⟨j, g, rfl, hg⟩
      rw [hfirst.unique hg]

end Sentential.Token
