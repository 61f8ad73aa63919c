import Sentential.Proofs.Formula.NormalForm
import Sentential.Proofs.Parsed.Spelling

/-!
# Printing and reading

The text of a formula puts parentheses around binary operands only. This is enough: by induction on the
formula, its text consists of tokens from which the grammar derives it at the level of its outermost
operator, and an operand in its parentheses, if it needs them, is at least at the level of a negation,
which fits every place (`exists_writes_wrapped`). The text is written in canonical symbols, so
normalization has nothing to replace, and reading it gives the formula back.
-/

namespace Sentential

open Grammar (Derives)

/-- The level of the outermost operator of a formula. -/
def Formula.level : Formula → Grammar.Level
  | var _ => .primary
  | not _ => .negation
  | binary op _ _ => (Operator.binary op).level

variable {ts us : List Token} {cs ds : List Char} {f l r : Formula}

namespace Writes

/-- A symbol may be written in front of a text. -/
theorem symbol {t : Token} {c : Char} (h : Writes Spelling.Alone ts cs) (ht : t.mark? = some c) :
    Writes Spelling.Alone (t :: ts) (c :: cs) := by
  have hnone : ∀ d ∈ ([] : List Char), Text.isBlank d = true := by simp
  exact .mark hnone ht rfl h

/-- A text in canonical symbols shares no character with the aliases. -/
theorem normalize_eq_self (h : Writes Spelling.Alone ts cs)
    (hnames : ∀ t ∈ ts, t.kind = .name → Text.isWord t.value = true) : Spelling.normalize cs = cs := by
  refine Spelling.normalize_eq_self ?_
  induction h with
  | nil hb => exact fun c hc => Spelling.not_mem_characters_of_isBlank (hb c hc)
  | @name _ _ t _ hb ht _ ih =>
    obtain ⟨_, hall⟩ := Text.isWord_iff.1 (hnames t List.mem_cons_self ht)
    have hrest := ih fun u hu => hnames u (List.mem_cons_of_mem t hu)
    simp only [List.mem_append]
    rintro c (hc | hc | hc)
    · exact Spelling.not_mem_characters_of_isBlank (hb c hc)
    · exact Spelling.not_mem_characters_of_isLetter (hall c hc)
    · exact hrest c hc
  | @mark _ _ _ t _ _ hb ht hs _ ih =>
    obtain rfl : _ = [_] := hs
    have hrest := ih fun u hu => hnames u (List.mem_cons_of_mem t hu)
    simp only [List.mem_append, List.mem_singleton]
    rintro c (hc | rfl | hc)
    · exact Spelling.not_mem_characters_of_isBlank (hb c hc)
    · exact Token.not_mem_characters_of_mark ht
    · exact hrest c hc

end Writes

namespace Formula

/-- Every operator has a token. -/
theorem exists_token (op : Operator) : ∃ t, Grammar.IsOperator op t ∧ t.mark? = some op.symbol := by
  have hop : Grammar.IsOperator op ⟨.operator, op.text, 0⟩ := ⟨rfl, Operator.ofSymbol?_text op⟩
  exact ⟨_, hop, Token.mark?_eq_some_iff.2 (.inl ⟨op, hop, rfl⟩)⟩

/-- An operand with its parentheses stands at the level of a negation. -/
theorem exists_writes_wrapped (hd : Derives f.level ts f) (hw : Writes Spelling.Alone ts f.chars) :
    ∃ us, Derives .negation us f ∧ Writes Spelling.Alone us (f.wrapped f.chars) := by
  unfold wrapped
  cases f with
  | var name => exact ⟨ts, .ofPrimary hd, hw⟩
  | not a => exact ⟨ts, hd, hw⟩
  | binary op l r =>
    have hnil : Writes Spelling.Alone [] [] := .nil (by simp)
    have hclose := hw.append (hnil.symbol (t := ⟨.closing, ")", 0⟩) rfl)
    exact ⟨_, .ofPrimary (.group rfl (hd.loosen (Nat.zero_le _)) rfl),
      hclose.symbol (t := ⟨.opening, "(", 0⟩) rfl⟩

/-- The text of a formula consists of tokens from which the grammar derives it. -/
theorem exists_writes (f : Formula) : ∃ ts, Derives f.level ts f ∧ Writes Spelling.Alone ts f.chars := by
  induction f with
  | var name =>
    have hnone : ∀ c ∈ ([] : List Char), Text.isBlank c = true := by simp
    refine ⟨[⟨.name, name, 0⟩], .name rfl, ?_⟩
    simpa [chars] using Writes.name hnone rfl (.nil hnone)
  | not a ih =>
    obtain ⟨ts, hd, hw⟩ := ih
    obtain ⟨us, hd, hw⟩ := exists_writes_wrapped hd hw
    obtain ⟨t, ht, hmark⟩ := exists_token .not
    exact ⟨t :: us, .not ht hd, hw.symbol hmark⟩
  | binary op l r ihl ihr =>
    obtain ⟨ls, hdl, hwl⟩ := ihl
    obtain ⟨ls, hdl, hwl⟩ := exists_writes_wrapped hdl hwl
    obtain ⟨rs, hdr, hwr⟩ := ihr
    obtain ⟨rs, hdr, hwr⟩ := exists_writes_wrapped hdr hwr
    obtain ⟨t, ht, hmark⟩ := exists_token (.binary op)
    have hfirst : op.firstLevel.rank ≤ Grammar.Level.negation.rank := by cases op <;> decide
    exact ⟨ls ++ t :: rs, .binary (hdl.loosen hfirst) ht (hdr.loosen (Operator.operandLevel_rank_le _)),
      hwl.append (hwr.symbol hmark)⟩

/-- The variables of a formula are declared words. -/
def Uses (f : Formula) (declared : List String) : Prop :=
  ∀ name ∈ f.atoms, Text.isWord name = true ∧ name ∈ declared

variable {declared : List String}

/-- A formula over declared words is read from its text, in which there is nothing to normalize. -/
theorem Uses.exists_parse_text (h : f.Uses declared) :
    Spelling.normalized f.text = f.text ∧ ∃ p, parse f.text declared = .ok p ∧ p.formula = f := by
  obtain ⟨ts, hd, hw⟩ := f.exists_writes
  have hnames : ∀ t ∈ ts, t.kind = .name → Text.isWord t.value = true ∧ t.value ∈ declared := by
    intro t ht hk
    exact h t.value (mem_atoms.2 (hd.mem_leaves_iff.2 ⟨t, ht, hk, rfl⟩))
  have hnormalize := hw.normalize_eq_self fun t ht hk => (hnames t ht hk).1
  have hspelled : Writes Spelling.Spells ts f.chars := hw.mono fun _ _ => .inl
  obtain ⟨_, p, _, _, hp, _, hf⟩ :=
    exists_parse_of_writes (hd.loosen (Nat.zero_le _)) hnames hspelled
  refine ⟨?_, p, hp, hf⟩
  rw [Spelling.normalized, text, String.toList_ofList, hnormalize]

theorem Uses.unconditional (h : f.Uses declared) : f.unconditional.Uses declared := fun name hn =>
  h name (mem_atoms.2 (mem_leaves_unconditional.1 (mem_atoms.1 hn)))

end Formula

/-- The variables of a formula that is read are declared words. -/
theorem Parsed.Stages.uses {source : String} {declared : List String} {p : Parsed}
    (h : p.Stages source declared) : p.formula.Uses declared := by
  intro name hn
  obtain ⟨t, ht, hk, rfl⟩ := h.derives.mem_leaves_iff.1 (Formula.mem_atoms.1 hn)
  exact ⟨h.scans.isWord_of_mem ht hk, h.scans.declared_of_mem ht hk⟩

/-- A formula over declared words is read from its text, which normalization leaves as it is. So the
text determines the formula, and what a text was read as, or became without conditionals, is read
again from its own text. -/
theorem Formula.text_round_trip (declared : List String) :
    (∀ f : Formula, f.Uses declared → Spelling.normalized f.text = f.text ∧
      ∃ p, parse f.text declared = .ok p ∧ p.formula = f) ∧
    (∀ f g : Formula, f.Uses declared → g.Uses declared → f.text = g.text → f = g) ∧
    (∀ source p, parse source declared = .ok p →
      (∃ q, parse p.formula.text declared = .ok q ∧ q.formula = p.formula) ∧
      ∃ q, parse p.formula.unconditional.text declared = .ok q ∧
        q.formula = p.formula.unconditional) := by
  refine ⟨fun f hf => hf.exists_parse_text, ?_, ?_⟩
  · intro f g hf hg htext
    obtain ⟨_, p, hp, rfl⟩ := hf.exists_parse_text
    obtain ⟨_, q, hq, rfl⟩ := hg.exists_parse_text
    rw [htext, hq] at hp
    rw [Except.ok.inj hp]
  · intro source p hp
    have huses := (parse_eq_ok_iff.1 hp).uses
    exact ⟨huses.exists_parse_text.2, huses.unconditional.exists_parse_text.2⟩

/-- The formula with the text `¬¬(p→q)↔p` is read from it. -/
theorem Formula.text_round_trip_stacked :
    let f : Formula := .binary .iff (.not (.not (.binary .implies (.var "p") (.var "q")))) (.var "p")
    f.Uses ["p", "q"] ∧ f.text = "¬¬(p→q)↔p" ∧
      ∃ p, parse "¬¬(p→q)↔p" ["p", "q"] = .ok p ∧ p.formula = f := by
  intro f
  have huses : f.Uses ["p", "q"] := by
    have hall : ∀ name ∈ f.leaves, Text.isWord name = true ∧ name ∈ ["p", "q"] := by decide +kernel
    exact fun name hn => hall name (mem_atoms.1 hn)
  have htext : f.text = "¬¬(p→q)↔p" := by rfl
  obtain ⟨_, hread⟩ := (text_round_trip ["p", "q"]).1 f huses
  exact ⟨huses, htext, htext ▸ hread⟩

end Sentential
