import Mathlib.Data.List.TakeWhile
import Sentential.Proofs.Bracket.Depth
import Sentential.Proofs.Cut
import Sentential.Proofs.Outcome
import Sentential.Token.Lexer

/-!
# Scanning as a relation

`Scans` lists what scanning does with the next character, and `scan_eq_ok_iff` ties it to the
scan. A text may be cut at any symbol (`append_symbol_iff`), and a text that is moved to another
position keeps the kinds and values of its tokens (`move`). Every name among the tokens is a declared word
(`declared_of_mem`, `isWord_of_mem`), and the tokens keep the sides of the brackets (`sides_eq`).
-/

namespace Sentential

/-- The kind and the value of a token, without its position. -/
def Token.lexeme (t : Token) : Token.Kind × String := (t.kind, t.value)

namespace Token

/-- A character with a token of its own is an operator symbol or a parenthesis. -/
theorem symbolKind_cases {c : Char} {kind : Kind} (h : symbolKind? c = some kind) :
    (kind = .operator ∧ ∃ op : Operator, c = op.symbol) ∨ (kind = .opening ∧ c = '(') ∨
      (kind = .closing ∧ c = ')') := by
  unfold symbolKind? at h
  split at h
  next hop =>
    obtain ⟨op, hop⟩ := Option.isSome_iff_exists.1 hop
    cases h
    exact .inl ⟨rfl, op, (Operator.symbol_of_ofChar? hop).symm⟩
  next =>
    split at h
    next hc => cases h; exact .inr (.inl ⟨rfl, hc⟩)
    next =>
      split at h
      next hc => cases h; exact .inr (.inr ⟨rfl, hc⟩)
      next => cases h

/-- A character has no token of its own exactly if it is neither an operator symbol nor a parenthesis. -/
theorem symbolKind?_eq_none_iff {c : Char} :
    symbolKind? c = none ↔ (∀ op : Operator, c ≠ op.symbol) ∧ c ≠ '(' ∧ c ≠ ')' := by
  constructor
  · intro h
    refine ⟨?_, ?_, ?_⟩
    · rintro op rfl
      simp [symbolKind?] at h
    · rintro rfl
      cases h
    · rintro rfl
      cases h
  · rintro ⟨hop, hopen, hclose⟩
    cases h : symbolKind? c with
    | none => rfl
    | some kind =>
      rcases symbolKind_cases h with ⟨_, op, hc⟩ | ⟨_, hc⟩ | ⟨_, hc⟩
      · exact absurd hc (hop op)
      · exact absurd hc hopen
      · exact absurd hc hclose

theorem isLetter_of_symbolKind {c : Char} {kind : Kind} (h : symbolKind? c = some kind) :
    Text.isLetter c = false ∧ Text.isBlank c = false := by
  rcases symbolKind_cases h with ⟨_, op, rfl⟩ | ⟨_, rfl⟩ | ⟨_, rfl⟩
  · cases op with
    | not => decide +kernel
    | binary c => cases c <;> decide +kernel
  · decide +kernel
  · decide +kernel

theorem kind_ne_name_of_symbolKind {c : Char} {kind : Kind} (h : symbolKind? c = some kind) :
    kind ≠ .name := by
  rcases symbolKind_cases h with ⟨rfl, _⟩ | ⟨rfl, _⟩ | ⟨rfl, _⟩ <;> decide

/-- The tokens of a text over the declared names. The text starts at a position, inside a run of
letters or not. -/
inductive Scans (declared : List String) : Bool → Nat → List Char → List Token → Prop
  | nil {inRun : Bool} {pos : Nat} : Scans declared inRun pos [] []
  | blank {inRun : Bool} {pos : Nat} {c : Char} {cs : List Char} {ts : List Token}
      (hc : Text.isBlank c = true) (h : Scans declared false (pos + 1) cs ts) :
      Scans declared inRun pos (c :: cs) ts
  | inside {pos : Nat} {c : Char} {cs : List Char} {ts : List Token}
      (hc : Text.isLetter c = true) (h : Scans declared true (pos + 1) cs ts) :
      Scans declared true pos (c :: cs) ts
  | name {pos : Nat} {c : Char} {cs : List Char} {ts : List Token} (hc : Text.isLetter c = true)
      (hn : String.ofList (c :: cs.takeWhile Text.isLetter) ∈ declared)
      (h : Scans declared true (pos + 1) cs ts) :
      Scans declared false pos (c :: cs)
        (⟨.name, String.ofList (c :: cs.takeWhile Text.isLetter), pos⟩ :: ts)
  | symbol {inRun : Bool} {pos : Nat} {c : Char} {cs : List Char} {ts : List Token} {kind : Kind}
      (hc : symbolKind? c = some kind) (h : Scans declared false (pos + 1) cs ts) :
      Scans declared inRun pos (c :: cs) (⟨kind, String.ofList [c], pos⟩ :: ts)

variable {declared : List String} {inRun : Bool} {pos : Nat} {cs : List Char} {ts : List Token}

theorem scan_eq_ok_iff : scan declared inRun pos cs = .ok ts ↔ Scans declared inRun pos cs ts := by
  constructor
  · intro h
    induction cs generalizing inRun pos ts with
    | nil => cases h; exact .nil
    | cons c cs ih =>
      unfold scan at h
      split at h
      next hb => exact .blank hb (ih h)
      next hb =>
        split at h
        next hl =>
          split at h
          next hr => subst hr; exact .inside hl (ih h)
          next hr =>
            obtain rfl := Bool.not_eq_true _ ▸ hr
            simp only at h
            split at h
            next hn =>
              obtain ⟨us, hus, rfl⟩ := Outcome.map_eq_ok_iff.1 h
              exact .name hl hn (ih hus)
            next => cases h
        next hl =>
          split at h
          next kind hk =>
            obtain ⟨us, hus, rfl⟩ := Outcome.map_eq_ok_iff.1 h
            exact .symbol hk (ih hus)
          next => cases h
  · intro h
    induction h with
    | nil => rfl
    | blank hc _ ih => rw [scan, if_pos hc, ih]
    | inside hc _ ih => rw [scan, if_neg (by simp [Text.isBlank_of_isLetter hc]), if_pos hc, if_pos rfl, ih]
    | name hc hn _ ih =>
      rw [scan, if_neg (by simp [Text.isBlank_of_isLetter hc]), if_pos hc, if_neg Bool.false_ne_true]
      simp only [if_pos hn, ih]
      rfl
    | symbol hc _ ih =>
      obtain ⟨hl, hb⟩ := isLetter_of_symbolKind hc
      rw [scan, if_neg (by simp [hb]), if_neg (by simp [hl])]
      simp only [hc, ih]
      rfl

/-- A text is refused by a fault: a run of letters that is not declared, or a character that has no
token. -/
theorem faults_scan (declared : List String) (inRun : Bool) (pos : Nat) (cs : List Char) :
    Outcome.Faults (scan declared inRun pos cs) := by
  induction cs generalizing inRun pos with
  | nil => exact .ok _
  | cons c cs ih =>
    unfold scan
    split
    next => exact ih false (pos + 1)
    next =>
      split
      next =>
        split
        next => exact ih true (pos + 1)
        next =>
          simp only
          split
          next => exact .map (ih true (pos + 1))
          next => exact .error _
      next =>
        split
        next => exact .map (ih false (pos + 1))
        next => exact .error _

/-- The place behind a text that begins with one more character. -/
theorem add_length_cons (pos : Nat) (c : Char) (cs : List Char) : pos + (c :: cs).length = pos + 1 + cs.length := by
  rw [List.length_cons]
  omega

namespace Scans

/-- The names among the tokens are declared. -/
theorem declared_of_mem (h : Scans declared inRun pos cs ts) {t : Token} (ht : t ∈ ts)
    (hk : t.kind = .name) : t.value ∈ declared := by
  induction h with
  | nil => cases ht
  | blank _ _ ih => exact ih ht
  | inside _ _ ih => exact ih ht
  | name _ hn _ ih =>
    rcases List.mem_cons.1 ht with rfl | ht
    · exact hn
    · exact ih ht
  | symbol hc _ ih =>
    rcases List.mem_cons.1 ht with rfl | ht
    · exact absurd hk (kind_ne_name_of_symbolKind hc)
    · exact ih ht

/-- The names among the tokens are words. -/
theorem isWord_of_mem (h : Scans declared inRun pos cs ts) {t : Token} (ht : t ∈ ts) (hk : t.kind = .name) :
    Text.isWord t.value = true := by
  induction h with
  | nil => cases ht
  | blank _ _ ih => exact ih ht
  | inside _ _ ih => exact ih ht
  | @name _ c cs _ hc _ _ ih =>
    rcases List.mem_cons.1 ht with rfl | ht
    · rw [Text.isWord_iff, String.toList_ofList]
      refine ⟨List.cons_ne_nil _ _, fun d hd => ?_⟩
      rcases List.mem_cons.1 hd with rfl | hd
      · exact hc
      · exact List.mem_takeWhile_imp hd
    · exact ih ht
  | symbol hc _ ih =>
    rcases List.mem_cons.1 ht with rfl | ht
    · exact absurd hk (kind_ne_name_of_symbolKind hc)
    · exact ih ht

/-- The operator tokens carry operators. -/
theorem canonical_of_mem (h : Scans declared inRun pos cs ts) {t : Token} (ht : t ∈ ts) : t.Canonical := by
  induction h with
  | nil => cases ht
  | blank _ _ ih => exact ih ht
  | inside _ _ ih => exact ih ht
  | name _ _ _ ih =>
    rcases List.mem_cons.1 ht with rfl | ht
    · exact fun hk => by cases hk
    · exact ih ht
  | symbol hc _ ih =>
    rcases List.mem_cons.1 ht with rfl | ht
    · intro hk
      rcases symbolKind_cases hc with ⟨_, op, rfl⟩ | ⟨hkind, _⟩ | ⟨hkind, _⟩
      · exact Option.isSome_iff_exists.2 ⟨op, Operator.ofSymbol?_text op⟩
      · cases hkind.symm.trans hk
      · cases hkind.symm.trans hk
    · exact ih ht

/-- Tokens keep the sides of the brackets. -/
theorem sides_eq (h : Scans declared inRun pos cs ts) : Bracket.sidesOfTokens ts = Bracket.sides cs := by
  have hblank {c : Char} (hc : Text.isBlank c = true) : Bracket.side? c = none :=
    Bracket.side?_eq_none_of_class (by decide +kernel) hc
  have hletter {c : Char} (hc : Text.isLetter c = true) : Bracket.side? c = none :=
    Bracket.side?_eq_none_of_class (by decide +kernel) hc
  induction h with
  | nil => rfl
  | blank hc _ ih => rw [ih, Bracket.sides_cons_of_plain (hblank hc)]
  | inside hc _ ih => rw [ih, Bracket.sides_cons_of_plain (hletter hc)]
  | name hc _ _ ih => exact ih.trans (Bracket.sides_cons_of_plain (hletter hc) _).symm
  | symbol hc _ ih =>
    rcases symbolKind_cases hc with ⟨rfl, op, rfl⟩ | ⟨rfl, rfl⟩ | ⟨rfl, rfl⟩
    · have hop : Bracket.side? op.symbol = none := by
        cases op with
        | not => rfl
        | binary c => cases c <;> rfl
      exact ih.trans (Bracket.sides_cons_of_plain hop _).symm
    · exact congrArg (Bracket.Side.opening :: ·) ih
    · exact congrArg (Bracket.Side.closing :: ·) ih

/-- More declared names leave the tokens as they are. -/
theorem mono {more : List String} (h : Scans declared inRun pos cs ts) (hsub : ∀ name ∈ declared, name ∈ more) :
    Scans more inRun pos cs ts := by
  induction h with
  | nil => exact .nil
  | blank hc _ ih => exact .blank hc ih
  | inside hc _ ih => exact .inside hc ih
  | name hc hn _ ih => exact .name hc (hsub _ hn) ih
  | symbol hc _ ih => exact .symbol hc ih

/-- Where no letter follows, it does not matter whether a run of letters ends. -/
theorem enter (h : Scans declared false pos cs ts) (hcs : ∀ c ∈ cs.head?, Text.isLetter c = false) :
    Scans declared true pos cs ts := by
  cases h with
  | nil => exact .nil
  | blank hc h => exact .blank hc h
  | name hc _ _ => exact absurd hc (by simp [hcs _ rfl])
  | symbol hc h => exact .symbol hc h

/-- A text in front of one that begins with no letter keeps its tokens. -/
theorem append {xs ys : List Char} {us vs : List Token} (hxs : Scans declared inRun pos xs us)
    (hys : Scans declared false (pos + xs.length) ys vs) (hend : ∀ c ∈ ys.head?, Text.isLetter c = false) :
    Scans declared inRun pos (xs ++ ys) (us ++ vs) := by
  induction hxs with
  | @nil inRun _ =>
    cases inRun with
    | false => exact hys
    | true => exact hys.enter hend
  | @blank _ _ c cs _ hx _ ih =>
    rw [add_length_cons] at hys
    exact .blank hx (ih hys)
  | @inside _ c cs _ hx _ ih =>
    rw [add_length_cons] at hys
    exact .inside hx (ih hys)
  | @name _ c cs _ hx hn _ ih =>
    rw [add_length_cons] at hys
    rw [← takeWhile_append_of_head? cs hend] at hn ⊢
    exact .name hx hn (ih hys)
  | @symbol _ _ c cs _ _ hx _ ih =>
    rw [add_length_cons] at hys
    exact .symbol hx (ih hys)

/-- A text scans around a symbol exactly if the part in front of the symbol and the part behind it do. -/
theorem append_symbol_iff {xs ys : List Char} {c : Char} {kind : Kind} (hc : symbolKind? c = some kind) :
    Scans declared inRun pos (xs ++ c :: ys) ts ↔
      ∃ us vs, Scans declared inRun pos xs us ∧ Scans declared false (pos + xs.length + 1) ys vs ∧
        ts = us ++ ⟨kind, String.ofList [c], (pos + xs.length : Nat)⟩ :: vs := by
  obtain ⟨hletter, hblank⟩ := isLetter_of_symbolKind hc
  have hend : ∀ d ∈ (c :: ys).head?, Text.isLetter d = false := by simpa using hletter
  constructor
  · intro h
    induction xs generalizing inRun pos ts with
    | nil =>
      cases h with
      | blank hb => rw [hblank] at hb; cases hb
      | inside hl => rw [hletter] at hl; cases hl
      | name hl => rw [hletter] at hl; cases hl
      | symbol hc' h =>
        cases hc.symm.trans hc'
        exact ⟨[], _, .nil, h, rfl⟩
    | cons x xs ih =>
      rw [add_length_cons]
      cases h with
      | blank hx h =>
        obtain ⟨us, vs, hus, hvs, rfl⟩ := ih h
        exact ⟨us, vs, .blank hx hus, hvs, rfl⟩
      | inside hx h =>
        obtain ⟨us, vs, hus, hvs, rfl⟩ := ih h
        exact ⟨us, vs, .inside hx hus, hvs, rfl⟩
      | name hx hn h =>
        obtain ⟨us, vs, hus, hvs, rfl⟩ := ih h
        have hxs : (xs.append (c :: ys)).takeWhile Text.isLetter = xs.takeWhile Text.isLetter :=
          takeWhile_append_of_head? xs hend
        rw [hxs] at hn ⊢
        exact ⟨_ :: us, vs, .name hx hn hus, hvs, rfl⟩
      | symbol hx h =>
        obtain ⟨us, vs, hus, hvs, rfl⟩ := ih h
        exact ⟨_ :: us, vs, .symbol hx hus, hvs, rfl⟩
  · rintro ⟨us, vs, hus, hvs, rfl⟩
    exact hus.append (.symbol hc hvs) hend

/-- Tokens differ by their positions only when the text stands elsewhere. -/
theorem move (h : Scans declared inRun pos cs ts) (pos' : Nat) :
    ∃ ts', Scans declared inRun pos' cs ts' ∧ ts'.map lexeme = ts.map lexeme := by
  induction h generalizing pos' with
  | nil => exact ⟨[], .nil, rfl⟩
  | blank hc _ ih =>
    obtain ⟨ts', h, heq⟩ := ih (pos' + 1)
    exact ⟨ts', .blank hc h, heq⟩
  | inside hc _ ih =>
    obtain ⟨ts', h, heq⟩ := ih (pos' + 1)
    exact ⟨ts', .inside hc h, heq⟩
  | name hc hn _ ih =>
    obtain ⟨ts', h, heq⟩ := ih (pos' + 1)
    exact ⟨_, .name hc hn h, by simp [heq, lexeme]⟩
  | symbol hc _ ih =>
    obtain ⟨ts', h, heq⟩ := ih (pos' + 1)
    exact ⟨_, .symbol hc h, by simp [heq, lexeme]⟩

/-- Blanks in front of a text hold no token. -/
theorem blanks_append {blanks : List Char} (h : Scans declared false (pos + blanks.length) cs ts)
    (hb : ∀ c ∈ blanks, Text.isBlank c = true) : Scans declared false pos (blanks ++ cs) ts := by
  induction blanks generalizing pos with
  | nil => exact h
  | cons c blanks ih =>
    rw [add_length_cons] at h
    exact .blank (hb c List.mem_cons_self) (ih h fun d hd => hb d (List.mem_cons_of_mem c hd))

/-- The letters that end a run hold no token. -/
theorem letters_append {letters : List Char} (h : Scans declared true (pos + letters.length) cs ts)
    (hl : ∀ c ∈ letters, Text.isLetter c = true) : Scans declared true pos (letters ++ cs) ts := by
  induction letters generalizing pos with
  | nil => exact h
  | cons c letters ih =>
    rw [add_length_cons] at h
    exact .inside (hl c List.mem_cons_self) (ih h fun d hd => hl d (List.mem_cons_of_mem c hd))

/-- A declared word in front of a text that begins with no letter is one token. -/
theorem word_append {name : String} (h : Scans declared false (pos + name.toList.length) cs ts)
    (hw : Text.isWord name = true) (hn : name ∈ declared) (hcs : ∀ c ∈ cs.head?, Text.isLetter c = false) :
    Scans declared false pos (name.toList ++ cs) (⟨.name, name, pos⟩ :: ts) := by
  obtain ⟨hne, hall⟩ := Text.isWord_iff.1 hw
  obtain ⟨c, letters, hname⟩ := List.exists_cons_of_ne_nil hne
  rw [hname] at hall h ⊢
  have hletters : ∀ d ∈ letters, Text.isLetter d = true := fun d hd => hall d (List.mem_cons_of_mem c hd)
  have hrun : String.ofList (c :: (letters ++ cs).takeWhile Text.isLetter) = name := by
    rw [(takeWhile_dropWhile_append hletters hcs).1, ← hname, String.ofList_toList]
  have hrest : Scans declared true (pos + 1) (letters ++ cs) ts := by
    have h := h.enter hcs
    rw [add_length_cons] at h
    exact h.letters_append hletters
  have hscans := Scans.name (hall c List.mem_cons_self) (hrun ▸ hn) hrest
  rwa [hrun] at hscans

/-- A declared word is one token. -/
theorem of_isWord {name : String} (hw : Text.isWord name = true) (hn : name ∈ declared) :
    Scans declared false pos name.toList [⟨.name, name, pos⟩] := by
  have hnil : Scans declared false (pos + name.toList.length) [] [] := .nil
  simpa using hnil.word_append hw hn

end Scans

end Token

end Sentential
