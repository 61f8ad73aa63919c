import Sentential.Proofs.Parsed.Refusal
import Sentential.Proofs.Token.Position

/-!
# Where tokens lie in a text

A text has tokens exactly if its brackets balance, its runs of letters are declared, and all else in it is
blank or a symbol (`exists_scan_iff`). What the scan finds is laid out over the text one token
after the other (`Scans.laid`): `Laid` reads a whole token in one step, while the scan reads one
character, so that inside a run of letters the induction is about the text behind the run. From the
layout follow the order of the tokens, the gaps between them, and that what they leave over is blank.
-/

namespace Sentential

/-- A run of letters of the text that goes as far as letters do, in both directions. -/
def Text.IsRun (cs run : List Char) : Prop :=
  run ≠ [] ∧ (∀ c ∈ run, isLetter c = true) ∧ ∃ before after, cs = before ++ (run ++ after) ∧
    (∀ c ∈ before.getLast?, isLetter c = false) ∧ ∀ c ∈ after.head?, isLetter c = false

namespace Token

/-- The position behind the last character of the token. -/
def stop (t : Token) : Int := t.pos + t.value.length

/-- The character at this position belongs to the token. -/
def Covers (t : Token) (i : Int) : Prop := t.pos ≤ i ∧ i < t.stop

variable {declared : List String} {inRun : Bool} {pos : Nat} {cs : List Char} {ts : List Token} {t u : Token}

/-! ## Which texts have tokens -/

/-- Every run of letters is declared, and every other character is blank, an operator or a parenthesis. -/
def Admissible (declared : List String) (cs : List Char) : Prop :=
  (∀ run, Text.IsRun cs run → String.ofList run ∈ declared) ∧
    ∀ c ∈ cs, Text.isLetter c = false →
      Text.isBlank c = true ∨ (∃ op : Operator, c = op.symbol) ∨ c = '(' ∨ c = ')'

/-- A text is admissible exactly if no place in it offends. -/
theorem admissible_iff : Admissible declared cs ↔ ∀ i f, ¬Offends declared cs i f := by
  constructor
  · rintro ⟨hruns, hothers⟩ i f h
    cases h with
    | @run before run after hne hrun hbefore hafter hd =>
      exact hd (hruns run ⟨hne, hrun, before, after, rfl, hbefore, hafter⟩)
    | @character before after c hl hb hop hopen hclose =>
      have hmem : c ∈ before ++ c :: after := by simp
      rcases hothers c hmem hl with hblank | ⟨op, hsymbol⟩ | hsymbol | hsymbol
      · exact absurd (hblank.symm.trans hb) (by decide)
      · exact hop op hsymbol
      · exact hopen hsymbol
      · exact hclose hsymbol
  · intro h
    refine ⟨?_, ?_⟩
    · rintro run ⟨hne, hrun, before, after, rfl, hbefore, hafter⟩
      by_contra hd
      exact h _ _ (.run hne hrun hbefore hafter hd)
    · intro c hc hl
      obtain ⟨before, after, rfl⟩ := List.append_of_mem hc
      by_contra hother
      simp only [not_or, not_exists] at hother
      obtain ⟨hblank, hop, hopen, hclose⟩ := hother
      exact h _ _ (.character hl (by simpa using hblank) hop hopen hclose)

/-- The scan gives tokens exactly for the admissible texts. -/
theorem exists_scan_iff : (∃ ts, scan declared false 0 cs = .ok ts) ↔ Admissible declared cs := by
  rw [admissible_iff]
  rcases scan_start_cases declared cs with ⟨ts, hts, hclean⟩ | ⟨i, f, hscan, hfirst⟩
  · exact iff_of_true ⟨ts, hts⟩ hclean
  · rw [hscan]
    refine iff_of_false ?_ ?_
    · rintro ⟨ts, h⟩
      cases h
    · intro h
      exact h i f hfirst.1

/-! ## The layout -/

/-- From a position on, the text consists of the tokens, each at its own position, with blanks around them.
A name is a word, and no letter follows it. -/
inductive Laid : Nat → List Char → List Token → Prop
  | nil {pos : Nat} : Laid pos [] []
  | blank {pos : Nat} {c : Char} {cs : List Char} {ts : List Token} (hc : Text.isBlank c = true)
      (h : Laid (pos + 1) cs ts) : Laid pos (c :: cs) ts
  | token {pos : Nat} {cs : List Char} {ts : List Token} (t : Token) (hpos : t.pos = pos)
      (hne : t.value.toList ≠ []) (hblank : ∀ c ∈ t.value.toList, Text.isBlank c = false)
      (hword : t.kind = .name → Text.isWord t.value = true)
      (hend : t.kind = .name → ∀ c ∈ cs.head?, Text.isLetter c = false)
      (h : Laid (pos + t.value.length) cs ts) : Laid pos (t.value.toList ++ cs) (t :: ts)

/-- A run of letters that no letter follows is laid out as a name. -/
theorem Laid.name {c : Char} {run after : List Char} (hletters : ∀ d ∈ c :: run, Text.isLetter d = true)
    (hafter : ∀ d ∈ after.head?, Text.isLetter d = false) (h : Laid (pos + 1 + run.length) after ts) :
    Laid pos (c :: (run ++ after)) (⟨.name, String.ofList (c :: run), pos⟩ :: ts) := by
  have htext : c :: (run ++ after) = (String.ofList (c :: run)).toList ++ after := by simp
  have hplace : pos + (String.ofList (c :: run)).length = pos + 1 + run.length := by
    rw [String.length_ofList, List.length_cons]
    omega
  have hword : Text.isWord (String.ofList (c :: run)) = true := by
    rw [Text.isWord_iff, String.toList_ofList]
    exact ⟨List.cons_ne_nil c run, hletters⟩
  have hblank : ∀ d ∈ (String.ofList (c :: run)).toList, Text.isBlank d = false := by
    rw [String.toList_ofList]
    exact fun d hd => Text.isBlank_of_isLetter (hletters d hd)
  rw [← hplace] at h
  rw [htext]
  exact .token ⟨.name, String.ofList (c :: run), pos⟩ rfl (by simp) hblank (fun _ => hword)
    (fun _ => hafter) h

/-- A symbol is laid out as a token of one character. -/
theorem Laid.symbol {c : Char} {kind : Kind} (hc : symbolKind? c = some kind) (h : Laid (pos + 1) cs ts) :
    Laid pos (c :: cs) (⟨kind, String.ofList [c], pos⟩ :: ts) := by
  have hblank := (isLetter_of_symbolKind hc).2
  have hname : kind ≠ .name := kind_ne_name_of_symbolKind hc
  have hlaid : Laid pos ((String.ofList [c]).toList ++ cs) (⟨kind, String.ofList [c], pos⟩ :: ts) :=
    .token ⟨kind, String.ofList [c], pos⟩ rfl (by simp) (by simpa using hblank)
      (fun hk => absurd hk hname) (fun hk => absurd hk hname) (by rwa [String.length_ofList])
  rwa [String.toList_ofList, List.singleton_append] at hlaid

/-- The tokens of a text are laid out over it, or over what stands behind the run of letters in which it
starts. -/
theorem Scans.laid_cases (h : Scans declared inRun pos cs ts) :
    (inRun = false → Laid pos cs ts) ∧ (inRun = true →
      Laid (pos + (cs.takeWhile Text.isLetter).length) (cs.dropWhile Text.isLetter) ts) := by
  induction h with
  | nil => exact ⟨fun _ => .nil, fun _ => .nil⟩
  | @blank _ pos c cs ts hc _ ih =>
    have hlaid : Laid pos (c :: cs) ts := .blank hc (ih.1 rfl)
    have hletter := Text.isLetter_of_isBlank hc
    refine ⟨fun _ => hlaid, fun _ => ?_⟩
    simpa [hletter] using hlaid
  | @inside pos c cs ts hc _ ih =>
    refine ⟨fun hfalse => (by cases hfalse), fun _ => ?_⟩
    have hplace : pos + ((c :: cs).takeWhile Text.isLetter).length =
        pos + 1 + (cs.takeWhile Text.isLetter).length := by
      rw [List.takeWhile_cons_of_pos hc, List.length_cons]
      omega
    rw [hplace, List.dropWhile_cons_of_pos hc]
    exact ih.2 rfl
  | @name pos c cs ts hc _ _ ih =>
    refine ⟨fun _ => ?_, fun htrue => (by cases htrue)⟩
    obtain ⟨run, after, rfl, hrun, hafter⟩ := exists_cut Text.isLetter cs
    obtain ⟨htake, hdrop⟩ := takeWhile_dropWhile_append hrun hafter
    have hrest := ih.2 rfl
    rw [htake, hdrop] at hrest
    rw [htake]
    exact .name (List.forall_mem_cons.2 ⟨hc, hrun⟩) hafter hrest
  | @symbol inRun pos c cs ts kind hc _ ih =>
    have hlaid : Laid pos (c :: cs) (⟨kind, String.ofList [c], pos⟩ :: ts) := .symbol hc (ih.1 rfl)
    have hletter := (isLetter_of_symbolKind hc).1
    refine ⟨fun _ => hlaid, fun _ => ?_⟩
    simpa [hletter] using hlaid

/-- The tokens that the scan finds are laid out over the text. -/
theorem Scans.laid (h : Scans declared false pos cs ts) : Laid pos cs ts := h.laid_cases.1 rfl

namespace Laid

theorem length_pos (hne : t.value.toList ≠ []) : 0 < t.value.length := by
  rw [← String.length_toList]
  exact List.length_pos_iff.2 hne

/-- No token stands in front of the text. -/
theorem le_pos (h : Laid pos cs ts) (ht : t ∈ ts) : (pos : Int) ≤ t.pos := by
  induction h with
  | nil => cases ht
  | blank _ _ ih =>
    have hle := ih ht
    omega
  | token _ hpos _ _ _ _ _ ih =>
    rcases List.mem_cons.1 ht with rfl | ht
    · omega
    · have hle := ih ht
      omega

/-- Where no letter follows, no name begins. -/
theorem lt_pos (h : Laid pos cs ts) (hcs : ∀ c ∈ cs.head?, Text.isLetter c = false) (ht : t ∈ ts)
    (hk : t.kind = .name) : (pos : Int) < t.pos := by
  cases h with
  | nil => cases ht
  | blank _ h =>
    have hle := h.le_pos ht
    omega
  | token u hpos hne _ hword _ h =>
    rcases List.mem_cons.1 ht with rfl | ht
    · obtain ⟨c, letters, hvalue⟩ := List.exists_cons_of_ne_nil hne
      have hletter : Text.isLetter c = true := (Text.isWord_iff.1 (hword hk)).2 c (by simp [hvalue])
      have hno := hcs c (by simp [hvalue])
      exact absurd (hletter.symm.trans hno) (by decide)
    · have hle := h.le_pos ht
      have hlen := length_pos hne
      omega

/-- Each token begins behind the one before, and between two names there is something else. -/
theorem pairwise (h : Laid pos cs ts) : ts.Pairwise fun t u =>
    t.pos < u.pos ∧ t.stop ≤ u.pos ∧ (t.kind = .name → u.kind = .name → t.stop < u.pos) := by
  induction h with
  | nil => exact .nil
  | blank _ _ ih => exact ih
  | token t hpos hne _ _ hend h ih =>
    refine List.pairwise_cons.2 ⟨fun u hu => ?_, ih⟩
    have hlen := length_pos hne
    have hle := h.le_pos hu
    unfold stop
    refine ⟨by omega, by omega, fun ht hk => ?_⟩
    have hlt := h.lt_pos (hend ht) hu hk
    omega

/-- The blanks of the text are the characters that belong to no token. -/
theorem isBlank_iff (h : Laid pos cs ts) {i : Nat} {c : Char} (hc : cs[i]? = some c) :
    Text.isBlank c = true ↔ ∀ t ∈ ts, ¬t.Covers (pos + i : Nat) := by
  induction h generalizing i with
  | nil => simp at hc
  | @blank pos d cs ts hd h ih =>
    cases i with
    | zero =>
      obtain rfl : d = c := by simpa using hc
      refine iff_of_true hd fun t ht hcovers => ?_
      have hle := h.le_pos ht
      have hstart := hcovers.1
      omega
    | succ i =>
      rw [List.getElem?_cons_succ] at hc
      have hplace : pos + (i + 1) = pos + 1 + i := by omega
      rw [hplace]
      exact ih hc
  | @token pos cs ts t hpos hne hblank _ _ h ih =>
    rw [List.forall_mem_cons]
    have hlength : t.value.toList.length = t.value.length := String.length_toList
    by_cases hi : i < t.value.length
    · rw [List.getElem?_append_left (by omega)] at hc
      have hno := hblank c (List.mem_of_getElem? hc)
      have hcovers : t.Covers (pos + i : Nat) := by
        unfold Covers stop
        omega
      refine iff_of_false (by simp [hno]) fun hall => ?_
      exact hall.1 hcovers
    · obtain ⟨k, rfl⟩ := Nat.exists_eq_add_of_le (Nat.le_of_not_lt hi)
      have hrest : t.value.length + k - t.value.toList.length = k := by omega
      rw [List.getElem?_append_right (by omega), hrest] at hc
      have hbehind : ¬t.Covers (pos + (t.value.length + k) : Nat) := by
        unfold Covers stop
        omega
      rw [ih hc, Nat.add_assoc, and_iff_right hbehind]

end Laid

/-! ## The tokens of a text -/

/-- A text has tokens exactly if its brackets balance and it is admissible. Every token then stands at its
position, the tokens follow one another without overlap, two names never touch, and the characters
that belong to no token are the blanks. A balanced text without tokens is refused for the leftmost run of
letters that is not declared or character that is no symbol. -/
theorem tokenize_exact (cs : List Char) (declared : List String) :
    ((∃ ts, tokenize cs declared = .ok ts) ↔
      Bracket.firstUnbalanced cs = none ∧ Admissible declared cs) ∧
    (∀ ts, tokenize cs declared = .ok ts →
      (∀ t ∈ ts, t.value.toList ≠ [] ∧ 0 ≤ t.pos ∧
        (cs.drop t.pos.toNat).take t.value.length = t.value.toList) ∧
      (ts.Pairwise fun t u =>
        t.pos < u.pos ∧ t.stop ≤ u.pos ∧ (t.kind = .name → u.kind = .name → t.stop < u.pos)) ∧
      ∀ (i : Nat) (c : Char), cs[i]? = some c → (Text.isBlank c = true ↔ ∀ t ∈ ts, ¬t.Covers i)) ∧
    (Bracket.firstUnbalanced cs = none → ∀ e, tokenize cs declared = .error e ↔
      ∃ i f, e = .fault f ∧ FirstOffends declared cs i f) := by
  refine ⟨?_, ?_, ?_⟩
  · rw [← exists_scan_iff]
    constructor
    · rintro ⟨ts, h⟩
      obtain ⟨hb, hs⟩ := tokenize_eq_ok_iff.1 h
      exact ⟨hb, ts, scan_eq_ok_iff.2 hs⟩
    · rintro ⟨hb, ts, hs⟩
      exact ⟨ts, tokenize_eq_ok_iff.2 ⟨hb, scan_eq_ok_iff.1 hs⟩⟩
  · intro ts h
    obtain ⟨_, hs⟩ := tokenize_eq_ok_iff.1 h
    have hlaid := hs.laid
    refine ⟨fun t ht => ?_, hlaid.pairwise, fun i c hc => ?_⟩
    · have hstands := hs.standsAt ht
      rw [Int.natCast_zero, Int.sub_zero] at hstands
      exact ⟨hstands.1, hstands.bounds.1, hstands.drop_take⟩
    · have hblank := hlaid.isBlank_iff hc
      rwa [Nat.zero_add] at hblank
  · intro hb e
    have hbalanced := Bracket.firstUnbalanced_eq_none_iff_balanced.1 hb
    rw [tokenize_eq_error_iff, and_iff_right hbalanced]
    refine or_iff_right ?_
    rintro ⟨pos, _, hpos⟩
    cases hb.symm.trans (Bracket.firstUnbalanced_eq_some_iff.2 hpos)

/-- In `¬pq → (r)` the fourth character is a blank outside the tokens, and without `pq` among the names the text
is refused for the whole run at position 1. -/
theorem tokenize_exact_runs :
    let cs := "¬pq → (r)".toList
    let ts : List Token := [⟨.operator, "¬", 0⟩, ⟨.name, "pq", 1⟩, ⟨.operator, "→", 4⟩, ⟨.opening, "(", 6⟩,
      ⟨.name, "r", 7⟩, ⟨.closing, ")", 8⟩]
    tokenize cs ["pq", "r"] = .ok ts ∧ (∀ t ∈ ts, ¬t.Covers 3) ∧ Bracket.firstUnbalanced cs = none ∧
      tokenize cs ["p", "q"] = .error (.fault (.undeclared "pq" 1)) ∧
      ∃ i f, Failure.fault (.undeclared "pq" 1) = .fault f ∧ FirstOffends ["p", "q"] cs i f := by
  intro cs ts
  have hb : Bracket.firstUnbalanced cs = none := by decide +kernel
  have hts : tokenize cs ["pq", "r"] = .ok ts := Outcome.toOption_eq_some_iff.1 (by decide +kernel)
  have hfails : tokenize cs ["p", "q"] = .error (.fault (.undeclared "pq" 1)) :=
    Outcome.fault?_eq_some_iff.1 (by decide +kernel)
  obtain ⟨_, hlaid, _⟩ := tokenize_exact cs ["pq", "r"]
  obtain ⟨_, _, hrefused⟩ := tokenize_exact cs ["p", "q"]
  obtain ⟨_, _, hcovers⟩ := hlaid ts hts
  exact ⟨hts, (hcovers 3 ' ' rfl).1 (by decide +kernel), hb, hfails, (hrefused hb _).1 hfails⟩

end Token

end Sentential
