import Sentential.Proofs.Grammar.Adjacent
import Sentential.Proofs.Spelling
import Sentential.Proofs.Token.Scan

/-!
# Written tokens

`Writes` says that a text consists of the given tokens, each in one of its spellings, with blanks
between them or none. Where neighbours are apart, as they are in a formula, no alias reaches
over the end of a token, so that normalization replaces the spelling of each token by its symbol
(`Writes.normalize`), and no run of letters does, so that the scan finds the tokens
again (`Writes.exists_scans`).
-/

namespace Sentential

namespace Token

/-- The canonical symbol of a token that is no name. -/
def mark? (t : Token) : Option Char :=
  match t.kind with
  | .name => none
  | .operator => t.operator?.map Operator.symbol
  | .opening => some '('
  | .closing => some ')'

/-- The token with its canonical symbol as value. -/
def canonicalized (t : Token) : Token :=
  match t.mark? with
  | some c => { t with value := String.ofList [c] }
  | none => t

variable {t : Token} {c : Char}

/-- A canonical symbol belongs to an operator token or to a parenthesis. -/
theorem mark?_eq_some_iff : t.mark? = some c ↔ (∃ op, Grammar.IsOperator op t ∧ c = op.symbol) ∨
    (t.kind = .opening ∧ c = '(') ∨ (t.kind = .closing ∧ c = ')') := by
  unfold mark? Grammar.IsOperator
  cases t.kind with
  | name => simp
  | operator => simp [Option.map_eq_some_iff, eq_comm (a := c)]
  | opening => simp [eq_comm]
  | closing => simp [eq_comm]

theorem canonicalized_kind (t : Token) : t.canonicalized.kind = t.kind := by
  unfold canonicalized
  split <;> rfl

theorem canonicalized_of_name (h : t.kind = .name) : t.canonicalized = t := by
  simp [canonicalized, mark?, h]

theorem canonicalized_of_isOperator {op : Operator} (h : Grammar.IsOperator op t) : t.canonicalized = t := by
  have hvalue : op.text = t.value := Operator.text_of_ofSymbol? h.2
  rw [canonicalized, mark?_eq_some_iff.2 (.inl ⟨op, h, rfl⟩)]
  exact congrArg (fun v => (⟨t.kind, v, t.pos⟩ : Token)) hvalue

/-- The scan finds a token of the same kind at a canonical symbol. -/
theorem symbolKind?_of_mark (h : t.mark? = some c) : symbolKind? c = some t.kind := by
  rcases mark?_eq_some_iff.1 h with ⟨op, hop, rfl⟩ | ⟨hk, rfl⟩ | ⟨hk, rfl⟩
  · rw [symbolKind?, Operator.ofChar?_symbol, hop.1]
    rfl
  · rw [hk]
    decide
  · rw [hk]
    decide

/-- A canonical symbol is part of no alias. -/
theorem not_mem_characters_of_mark (h : t.mark? = some c) : c ∉ Spelling.characters := by
  rcases mark?_eq_some_iff.1 h with ⟨op, _, rfl⟩ | ⟨_, rfl⟩ | ⟨_, rfl⟩
  · cases op with
    | not => decide
    | binary c => cases c <;> decide
  · decide
  · decide

/-- Only connectives have a spelling that an alias could reach into. -/
theorem mark_cases (h : t.mark? = some c) :
    (∃ d, Grammar.IsOperator (.binary d) t) ∨ c ∈ ['¬', '(', ')'] := by
  rcases mark?_eq_some_iff.1 h with ⟨op, hop, rfl⟩ | ⟨_, rfl⟩ | ⟨_, rfl⟩
  · cases op with
    | not => exact .inr (by decide)
    | binary d => exact .inl ⟨d, hop⟩
  · exact .inr (by decide)
  · exact .inr (by decide)

end Token

/-- The canonical tokens of a formula form the same formula. -/
theorem Grammar.Derives.canonicalized {l : Level} {ts : List Token} {f : Formula} (h : Derives l ts f) :
    Derives l (ts.map Token.canonicalized) f := by
  induction h using Derives.byLevels with
  | binary _ ht _ ihl ihr =>
    rw [List.map_append, List.map_cons, Token.canonicalized_of_isOperator ht]
    exact .binary ihl ht ihr
  | loosen _ hl ih => exact ih.loosen hl
  | not ht _ ih =>
    rw [List.map_cons, Token.canonicalized_of_isOperator ht]
    exact .not ht ih
  | name ht =>
    rw [List.map_singleton, Token.canonicalized_of_name ht]
    exact .name ht
  | @group ts _ o c ho _ hc ih =>
    rw [List.map_cons, List.map_append, List.map_singleton]
    exact .group (o.canonicalized_kind.trans ho) ih (c.canonicalized_kind.trans hc)

/-- The text consists of the tokens with blanks before, between and behind them. A name stands for
itself, any other token is written as one of the spellings of its symbol. -/
inductive Writes (spells : List Char → Char → Prop) : List Token → List Char → Prop
  | nil {blanks : List Char} (hb : ∀ c ∈ blanks, Text.isBlank c = true) : Writes spells [] blanks
  | name {blanks rest : List Char} {t : Token} {ts : List Token}
      (hb : ∀ c ∈ blanks, Text.isBlank c = true) (ht : t.kind = .name) (h : Writes spells ts rest) :
      Writes spells (t :: ts) (blanks ++ (t.value.toList ++ rest))
  | mark {blanks piece rest : List Char} {t : Token} {ts : List Token} {c : Char}
      (hb : ∀ c ∈ blanks, Text.isBlank c = true) (ht : t.mark? = some c) (hc : spells piece c)
      (h : Writes spells ts rest) : Writes spells (t :: ts) (blanks ++ (piece ++ rest))

/-- The only spelling of a symbol is the symbol itself. -/
def Spelling.Alone (cs : List Char) (symbol : Char) : Prop := cs = [symbol]

namespace Writes

variable {spells : List Char → Char → Prop} {ts us : List Token} {cs ds : List Char} {t : Token} {c : Char}

/-- The first character behind blanks and a piece is one of these. -/
theorem mem_of_mem_head? {blanks piece rest : List Char} (hne : piece ≠ [])
    (h : c ∈ (blanks ++ (piece ++ rest)).head?) : c ∈ blanks ∨ c ∈ piece := by
  cases blanks with
  | nil =>
    obtain ⟨d, piece, rfl⟩ := List.exists_cons_of_ne_nil hne
    exact .inr (by simp_all)
  | cons b blanks => exact .inl (by simp_all)

/-- A text may begin with more blanks. -/
theorem blanks_append (h : Writes spells ts cs) {blanks : List Char}
    (hb : ∀ c ∈ blanks, Text.isBlank c = true) : Writes spells ts (blanks ++ cs) := by
  have happend : ∀ {more : List Char}, (∀ c ∈ more, Text.isBlank c = true) →
      ∀ c ∈ blanks ++ more, Text.isBlank c = true := by
    intro more hmore c hc
    exact (List.mem_append.1 hc).elim (hb c) (hmore c)
  cases h with
  | nil hb' => exact .nil (happend hb')
  | name hb' ht h =>
    rw [← List.append_assoc]
    exact .name (happend hb') ht h
  | mark hb' ht hc h =>
    rw [← List.append_assoc]
    exact .mark (happend hb') ht hc h

/-- Texts may be written one behind the other. -/
theorem append (h : Writes spells ts cs) (h' : Writes spells us ds) : Writes spells (ts ++ us) (cs ++ ds) := by
  induction h with
  | nil hb => exact h'.blanks_append hb
  | name hb ht _ ih =>
    rw [List.append_assoc, List.append_assoc]
    exact .name hb ht ih
  | mark hb ht hc _ ih =>
    rw [List.append_assoc, List.append_assoc]
    exact .mark hb ht hc ih

theorem mono {spells' : List Char → Char → Prop} (h : Writes spells ts cs)
    (hspells : ∀ piece c, spells piece c → spells' piece c) : Writes spells' ts cs := by
  induction h with
  | nil hb => exact .nil hb
  | name hb ht _ ih => exact .name hb ht ih
  | mark hb ht hc _ ih => exact .mark hb ht (hspells _ _ hc) ih

/-! ## Normalization -/

/-- In front of a text that begins with no connective, every alias ends. -/
theorem not_mem_joints (h : Writes Spelling.Spells ts cs)
    (hnames : ∀ t ∈ ts, t.kind = .name → Text.isWord t.value = true)
    (hts : ∀ t ∈ ts.head?, ∀ d, ¬Grammar.IsOperator (.binary d) t) : ∀ c ∈ cs.head?, c ∉ Spelling.joints := by
  have hblank : ∀ {c : Char}, Text.isBlank c = true → c ∉ Spelling.joints := fun hc =>
    (Spelling.plain_of_not_mem_characters (Spelling.not_mem_characters_of_isBlank hc)).2.1
  intro c hc
  cases h with
  | nil hb => exact hblank (hb c (List.mem_of_mem_head? hc))
  | @name _ _ t _ hb ht _ =>
    obtain ⟨hne, hall⟩ := Text.isWord_iff.1 (hnames t List.mem_cons_self ht)
    rcases mem_of_mem_head? hne hc with hc | hc
    · exact hblank (hb c hc)
    · exact (Spelling.plain_of_not_mem_characters (Spelling.not_mem_characters_of_isLetter (hall c hc))).2.1
  | mark hb ht hs _ =>
    rcases mem_of_mem_head? hs.ne_nil hc with hc | hc
    · exact hblank (hb c hc)
    · rcases Token.mark_cases ht with ⟨d, hd⟩ | hplain
      · exact absurd hd (hts _ rfl d)
      · exact (hs.plain_of_mem hplain hc).2

/-- Normalization replaces the spelling of each token by its symbol and leaves the blanks. -/
theorem normalize (h : Writes Spelling.Spells ts cs)
    (hnames : ∀ t ∈ ts, t.kind = .name → Text.isWord t.value = true) (hts : ts.IsChain Grammar.Apart) :
    Writes Spelling.Alone ts (Spelling.normalize cs) := by
  have hself : ∀ {xs ys : List Char}, (∀ c ∈ xs, c ∉ Spelling.characters) →
      Spelling.normalize (xs ++ ys) = xs ++ Spelling.normalize ys := by
    intro xs ys hxs
    rw [Spelling.normalize_append_of_not_heads fun c hc => (Spelling.plain_of_not_mem_characters (hxs c hc)).1,
      Spelling.normalize_eq_self hxs]
  have hblanks : ∀ {xs : List Char}, (∀ c ∈ xs, Text.isBlank c = true) → ∀ c ∈ xs, c ∉ Spelling.characters :=
    fun hxs c hc => Spelling.not_mem_characters_of_isBlank (hxs c hc)
  induction h with
  | nil hb =>
    rw [Spelling.normalize_eq_self (hblanks hb)]
    exact .nil hb
  | @name _ _ t _ hb ht _ ih =>
    obtain ⟨_, hall⟩ := Text.isWord_iff.1 (hnames t List.mem_cons_self ht)
    rw [hself (hblanks hb), hself fun c hc => Spelling.not_mem_characters_of_isLetter (hall c hc)]
    exact .name hb ht (ih (fun u hu => hnames u (List.mem_cons_of_mem t hu)) hts.tail)
  | @mark _ piece rest t ts c hb ht hc h ih =>
    have hrest : ∀ u ∈ ts, u.kind = .name → Text.isWord u.value = true :=
      fun u hu => hnames u (List.mem_cons_of_mem t hu)
    have hpiece : Spelling.normalize (piece ++ rest) = [c] ++ Spelling.normalize rest := by
      rw [← hc.normalize_eq (Token.not_mem_characters_of_mark ht)]
      rcases Token.mark_cases ht with ⟨d, hd⟩ | hplain
      · -- A connective may go on in the text behind it, but no connective follows one.
        refine Spelling.normalize_append (h.not_mem_joints hrest fun u hu e => ?_)
        exact (hts.rel_head? hu).2 d e hd
      · exact Spelling.normalize_append_of_not_heads (fun e he => (hc.plain_of_mem hplain he).1) rest
    rw [hself (hblanks hb), hpiece]
    exact .mark hb ht rfl (ih hrest hts.tail)

/-! ## Scanning -/

/-- In front of a text that begins with no name, every run of letters ends. -/
theorem isLetter_eq_false (h : Writes Spelling.Alone ts cs) (hts : ∀ t ∈ ts.head?, t.kind ≠ .name) :
    ∀ c ∈ cs.head?, Text.isLetter c = false := by
  intro c hc
  cases h with
  | nil hb => exact Text.isLetter_of_isBlank (hb c (List.mem_of_mem_head? hc))
  | name _ ht _ => exact absurd ht (hts _ rfl)
  | mark hb ht hs _ =>
    obtain rfl : _ = [_] := hs
    rcases mem_of_mem_head? (List.cons_ne_nil _ _) hc with hc | hc
    · exact Text.isLetter_of_isBlank (hb c hc)
    · obtain rfl := List.mem_singleton.1 hc
      exact (Token.isLetter_of_symbolKind (Token.symbolKind?_of_mark ht)).1

/-- The scan finds the tokens of a text that is written in canonical symbols. -/
theorem exists_scans {declared : List String} (h : Writes Spelling.Alone ts cs)
    (hnames : ∀ t ∈ ts, t.kind = .name → Text.isWord t.value = true ∧ t.value ∈ declared)
    (hts : ts.IsChain Grammar.Apart) (pos : Nat) :
    ∃ us, Token.Scans declared false pos cs us ∧
      us.map Token.lexeme = ts.map fun t => t.canonicalized.lexeme := by
  induction h generalizing pos with
  | nil hb => exact ⟨[], by simpa using Token.Scans.nil.blanks_append hb, rfl⟩
  | @name blanks rest t ts hb ht h ih =>
    obtain ⟨hword, hdeclared⟩ := hnames t List.mem_cons_self ht
    obtain ⟨us, hus, hlexemes⟩ := ih (fun u hu => hnames u (List.mem_cons_of_mem t hu)) hts.tail
      (pos + blanks.length + t.value.toList.length)
    have hrest : ∀ c ∈ rest.head?, Text.isLetter c = false :=
      h.isLetter_eq_false fun u hu => (hts.rel_head? hu).1 ht
    refine ⟨_, (hus.word_append hword hdeclared hrest).blanks_append hb, ?_⟩
    rw [List.map_cons, List.map_cons, hlexemes, Token.canonicalized_of_name ht, Token.lexeme, Token.lexeme, ht]
  | @mark blanks _ _ t _ c hb ht hc _ ih =>
    obtain rfl : _ = [_] := hc
    obtain ⟨us, hus, hlexemes⟩ := ih (fun u hu => hnames u (List.mem_cons_of_mem t hu)) hts.tail
      (pos + blanks.length + 1)
    refine ⟨_, (Token.Scans.symbol (Token.symbolKind?_of_mark ht) hus).blanks_append hb, ?_⟩
    rw [List.map_cons, List.map_cons, hlexemes, Token.canonicalized, ht]
    rfl

end Writes

end Sentential
