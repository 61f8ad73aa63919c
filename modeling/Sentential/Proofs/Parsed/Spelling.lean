import Sentential.Proofs.Parsed
import Sentential.Proofs.Token.Written

/-!
# Independence of spelling and spacing

However the tokens of a formula are spelled and whatever blanks stand between them, the text is read
as this formula (`exists_parse_of_writes`). `parse_of_writes` says the same from the side of the
tokens: if they have a postfix order, every text of them scans to them again and is read
as the formula that the postfix order assembles.
-/

namespace Sentential

open Grammar (Derives)

namespace Token.Scans

variable {declared : List String} {inRun : Bool} {pos : Nat} {cs : List Char} {ts us : List Token}

theorem unique (h : Scans declared inRun pos cs ts) (h' : Scans declared inRun pos cs us) : ts = us := by
  rw [← scan_eq_ok_iff] at h h'
  exact Except.ok.inj (h.symm.trans h')

/-- Blanks alone hold no token. -/
theorem eq_nil_of_isBlank (h : Scans declared false pos cs ts) (hb : ∀ c ∈ cs, Text.isBlank c = true) :
    ts = [] := by
  have hnil : Scans declared false pos (cs ++ []) [] := Scans.nil.blanks_append hb
  rw [List.append_nil] at hnil
  exact h.unique hnil

/-- A text with tokens is not blank. -/
theorem isBlankText_eq_false {s : String} (h : Scans declared false pos (Spelling.normalize s.toList) ts)
    (hts : ts ≠ []) : Text.isBlankText s = false := by
  by_contra hblank
  have hb : ∀ c ∈ s.toList, Text.isBlank c = true := by simpa [Text.isBlankText] using hblank
  rw [Spelling.normalize_eq_self fun c hc => Spelling.not_mem_characters_of_isBlank (hb c hc)] at h
  exact hts (h.eq_nil_of_isBlank hb)

end Token.Scans

variable {declared : List String} {ts post : List Token} {cs : List Char}

/-- Every text of the tokens of a formula scans to these tokens and is read as the formula. -/
theorem exists_parse_of_writes {f : Formula} (hd : Derives .equivalence ts f)
    (hnames : ∀ t ∈ ts, t.kind = .name → Text.isWord t.value = true ∧ t.value ∈ declared)
    (hw : Writes Spelling.Spells ts cs) :
    ∃ us p, Token.tokenize (Spelling.normalize cs) declared = .ok us ∧
      us.map Token.lexeme = ts.map (·.canonicalized.lexeme) ∧
      parse (String.ofList cs) declared = .ok p ∧ p.tokens = us ∧ p.formula = f := by
  have happart := hd.isChain_apart
  have hcanonical := hw.normalize (fun t ht hk => (hnames t ht hk).1) happart
  obtain ⟨us, hus, hlexemes⟩ := hcanonical.exists_scans hnames happart 0
  have hderives : Derives .equivalence us f := by
    refine hd.canonicalized.congr ?_
    rw [hlexemes, List.map_map]
    rfl
  have hne : us ≠ [] := by
    obtain ⟨t, rest, rfl, _⟩ := hderives.exists_starts
    exact List.cons_ne_nil t rest
  rw [← String.toList_ofList (l := cs)] at hus
  obtain ⟨p, hp, hf⟩ := exists_parse_of_scans (hus.isBlankText_eq_false hne) hus hderives
  have hstages := parse_eq_ok_iff.1 hp
  have htokens := Token.tokenize_eq_ok_iff.2 ⟨hstages.balanced, hus⟩
  rw [String.toList_ofList] at htokens
  exact ⟨us, p, htokens, hlexemes, hp, hstages.scans.unique hus, hf⟩

/-- Tokens that have a postfix order and whose names are declared words may be spelled in any way, with
any blanks between them: the text has the same kinds and canonical values of tokens, and it is read as
the formula that the postfix order assembles. -/
theorem parse_of_writes (hpost : toPostfix ts = .ok post)
    (hnames : ∀ t ∈ ts, t.kind = .name → Text.isWord t.value = true ∧ t.value ∈ declared)
    (hw : Writes Spelling.Spells ts cs) :
    ∃ us p f, Token.tokenize (Spelling.normalize cs) declared = .ok us ∧
      us.map Token.lexeme = ts.map (·.canonicalized.lexeme) ∧
      parse (String.ofList cs) declared = .ok p ∧ p.tokens = us ∧
      Formula.ofPostfix post = .ok f ∧ p.formula = f := by
  obtain ⟨f, hd, hf⟩ := exists_derives_of_toPostfix hpost
  obtain ⟨us, p, hus, hlexemes, hp, htokens, hformula⟩ := exists_parse_of_writes hd hnames hw
  exact ⟨us, p, f, hus, hlexemes, hp, htokens, hf, hformula⟩

/-- The tokens of `p → (¬q)`, written as `p=>{ !q}`. -/
theorem parse_of_writes_braces :
    let ts : List Token := [⟨.name, "p", 0⟩, ⟨.operator, "→", 1⟩, ⟨.opening, "(", 2⟩, ⟨.operator, "¬", 3⟩,
      ⟨.name, "q", 4⟩, ⟨.closing, ")", 5⟩]
    Writes Spelling.Spells ts "p=>\x7b !q\x7d".toList ∧
      ∃ p, parse "p=>\x7b !q\x7d" ["p", "q"] = .ok p ∧
        p.formula = .binary .implies (.var "p") (.not (.var "q")) := by
  intro ts
  have hno : ∀ c ∈ ([] : List Char), Text.isBlank c = true := by simp
  have hone : ∀ c ∈ [' '], Text.isBlank c = true := List.forall_mem_singleton.2 (by decide)
  have hw : Writes Spelling.Spells ts "p=>\x7b !q\x7d".toList :=
    @Writes.name _ [] _ _ _ hno rfl <| @Writes.mark _ [] ['=', '>'] _ _ _ '→' hno rfl (.inr (by decide)) <|
    @Writes.mark _ [] ['{'] _ _ _ '(' hno rfl (.inr (by decide)) <|
    @Writes.mark _ [' '] ['!'] _ _ _ '¬' hone rfl (.inr (by decide)) <|
    @Writes.name _ [] _ _ _ hno rfl <| @Writes.mark _ [] ['}'] _ _ _ ')' hno rfl (.inr (by decide)) <|
    .nil hno
  have hnames : ∀ t ∈ ts, t.kind = .name → Text.isWord t.value = true ∧ t.value ∈ ["p", "q"] := by
    decide +kernel
  have hpost : toPostfix ts = .ok [⟨.name, "p", 0⟩, ⟨.name, "q", 4⟩, ⟨.operator, "¬", 3⟩,
      ⟨.operator, "→", 1⟩] := rfl
  obtain ⟨_, p, f, _, _, hp, _, hf, hformula⟩ := parse_of_writes hpost hnames hw
  cases hf
  exact ⟨hw, p, hp, hformula⟩

/-- Two disjunctions side by side have no postfix order, and written without a blank they are one. -/
example : Spelling.normalize "p||q".toList = "p∨q".toList := by rfl

end Sentential
