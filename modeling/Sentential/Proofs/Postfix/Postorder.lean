import Sentential.Proofs.Postfix.Language
import Sentential.Proofs.Token.Scan

/-!
# Postfix tokens list a formula

The operands that postfix tokens leave on the stack are listed by these tokens, one after the other
(`Formula.listing_foldlM_stack`), and the listing of a formula puts the formula on any stack
(`Formula.assembles_of_postorder`). So tokens assemble to a formula exactly if they list it
(`Formula.ofPostfix_eq_ok_iff_postorder`).

The reordering moves tokens and loses none but the parentheses. `Reordering.Carries` says what a state
still has of the tokens that were read: one token keeps it (`Carries.takes`), and so does a run
(`Carries.run`). `postfix_lists_formula` puts the two halves together.
-/

namespace Sentential

/-- The token is a parenthesis. -/
def Token.isParenthesis (t : Token) : Bool := t.kind == .opening || t.kind == .closing

namespace Formula

variable {ts us : List Token} {t : Token} {operands operands' : List Formula} {f : Formula}

/-- The postorder listings of the operands on a stack, the earliest operand first. -/
def listing (operands : List Formula) : List (Token.Kind × String) := operands.reverse.flatMap postorder

theorem listing_cons (f : Formula) (operands : List Formula) :
    listing (f :: operands) = listing operands ++ f.postorder := by
  simp [listing]

theorem lexeme_of_operator {op : Operator} (hk : t.kind = .operator) (hop : t.operator? = some op) :
    t.lexeme = (.operator, op.text) := by
  rw [Token.lexeme, hk, Operator.text_of_ofSymbol? hop]

/-- A token is listed behind the operands that it is put on. -/
theorem listing_stack (h : stack operands t = .ok operands') :
    listing operands' = listing operands ++ [t.lexeme] := by
  unfold stack at h
  split at h
  next hk =>
    cases h
    rw [listing_cons, Token.lexeme, hk]
    rfl
  next hk =>
    split at h
    next => cases h
    next a rest hop =>
      cases h
      rw [listing_cons, listing_cons, lexeme_of_operator hk hop, postorder, List.append_assoc]
    next c r l rest hop =>
      cases h
      rw [listing_cons, listing_cons, listing_cons, lexeme_of_operator hk hop, postorder]
      simp only [List.append_assoc]
    next => cases h
  next => cases h

/-- After a run the tokens are listed behind the operands from which it started. -/
theorem listing_foldlM_stack (h : ts.foldlM stack operands = .ok operands') :
    listing operands' = listing operands ++ ts.map Token.lexeme := by
  induction ts generalizing operands with
  | nil =>
    cases h
    rw [List.map_nil, List.append_nil]
  | cons t ts ih =>
    obtain ⟨mid, hmid, h⟩ := Outcome.foldlM_cons_eq_ok_iff.1 h
    rw [ih h, listing_stack hmid, List.append_assoc]
    rfl

/-- A token with the lexeme of an operator stands for it. -/
theorem isOperator_of_lexeme {op : Operator} (h : t.lexeme = (.operator, op.text)) : Grammar.IsOperator op t := by
  obtain ⟨hk, hv⟩ := Prod.mk.inj h
  refine ⟨hk, ?_⟩
  rw [Token.operator?, hv, Operator.ofSymbol?_text]

/-- The tokens of a listing put the formula on the stack, whatever lies there. -/
theorem assembles_of_postorder (h : Assembles ts operands) (hus : us.map Token.lexeme = f.postorder) :
    Assembles (ts ++ us) (f :: operands) := by
  induction f generalizing ts us operands with
  | var name =>
    obtain ⟨t, rfl, ht⟩ := List.map_eq_singleton_iff.1 hus
    obtain ⟨hk, rfl⟩ := Prod.mk.inj ht
    exact h.name hk
  | not a ih =>
    obtain ⟨as, signs, rfl, has, hsigns⟩ := List.map_eq_append_iff.1 hus
    obtain ⟨t, rfl, ht⟩ := List.map_eq_singleton_iff.1 hsigns
    rw [← List.append_assoc]
    exact (ih h has).not (isOperator_of_lexeme ht)
  | binary op l r ihl ihr =>
    obtain ⟨both, signs, rfl, hboth, hsigns⟩ := List.map_eq_append_iff.1 hus
    obtain ⟨ls, rs, rfl, hls, hrs⟩ := List.map_eq_append_iff.1 hboth
    obtain ⟨t, rfl, ht⟩ := List.map_eq_singleton_iff.1 hsigns
    rw [← List.append_assoc, ← List.append_assoc]
    exact (ihr (ihl h hls) hrs).binary (isOperator_of_lexeme ht)

/-- Tokens assemble to a formula exactly if they list it. -/
theorem ofPostfix_eq_ok_iff_postorder : ofPostfix ts = .ok f ↔ ts.map Token.lexeme = f.postorder := by
  rw [ofPostfix_eq_ok_iff]
  constructor
  · intro h
    have hlisting := listing_foldlM_stack h
    rw [listing_cons] at hlisting
    exact hlisting.symm
  · intro h
    exact assembles_of_postorder .nil h

end Formula

namespace Held

/-- The tokens of the operators that are held. -/
def signs : List Held → List Token
  | [] => []
  | bracket _ :: held => signs held
  | operator t _ :: held => t :: signs held

@[simp] theorem signs_append (out kept : List Held) : signs (out ++ kept) = signs out ++ signs kept := by
  induction out with
  | nil => rfl
  | cons x out ih => cases x <;> simp [signs, ih]

/-- Where no bracket is held, every held token is that of an operator. -/
theorem signs_of_forms {out : List Held} {l : Grammar.Level} (h : ∀ x ∈ out, x.Forms l) :
    signs out = out.map token := by
  induction out with
  | nil => rfl
  | cons x out ih =>
    have hrest := ih fun y hy => h y (List.mem_cons_of_mem x hy)
    cases x with
    | bracket t => exact (h _ List.mem_cons_self).elim
    | operator t op => rw [signs, hrest, List.map_cons, token]

end Held

namespace Reordering

variable {s s' : Reordering} {output pending ts us post : List Token} {t : Token}

/-- What is left of the tokens that were read: every one but the parentheses is either in the output or a
sign that is held, and the output has the names in their order. -/
structure Carries (output pending ts : List Token) : Prop where
  perm : (output ++ pending).Perm (ts.filter (!·.isParenthesis))
  names_eq : output.filter (·.kind = .name) = ts.filter (·.kind = .name)
  signs : ∀ t ∈ pending, t.kind = .operator

namespace Carries

/-- A name goes to the output. -/
theorem name (h : Carries output pending ts) (ht : t.kind = .name) :
    Carries (output ++ [t]) pending (ts ++ [t]) where
  perm := by
    have hkept : (ts ++ [t]).filter (!·.isParenthesis) = ts.filter (!·.isParenthesis) ++ [t] := by
      simp [Token.isParenthesis, ht]
    rw [hkept, List.append_assoc]
    exact List.perm_middle.trans ((h.perm.cons t).trans (List.perm_append_singleton t _).symm)
  names_eq := by rw [List.filter_append, List.filter_append, h.names_eq]
  signs := h.signs

/-- An operator is held. -/
theorem operator (h : Carries output pending ts) (ht : t.kind = .operator) :
    Carries output (t :: pending) (ts ++ [t]) where
  perm := by
    have hkept : (ts ++ [t]).filter (!·.isParenthesis) = ts.filter (!·.isParenthesis) ++ [t] := by
      simp [Token.isParenthesis, ht]
    rw [hkept]
    exact List.perm_middle.trans ((h.perm.cons t).trans (List.perm_append_singleton t _).symm)
  names_eq := by simpa [ht] using h.names_eq
  signs := List.forall_mem_cons.2 ⟨ht, h.signs⟩

/-- A parenthesis is dropped. -/
theorem parenthesis (h : Carries output pending ts) (ht : t.kind = .opening ∨ t.kind = .closing) :
    Carries output pending (ts ++ [t]) where
  perm := by
    have hdropped : (ts ++ [t]).filter (!·.isParenthesis) = ts.filter (!·.isParenthesis) := by
      simpa [Token.isParenthesis, or_iff_not_imp_left] using ht
    rw [hdropped]
    exact h.perm
  names_eq := by
    have hname : t.kind ≠ .name := by rcases ht with ht | ht <;> rw [ht] <;> decide
    simpa [hname] using h.names_eq
  signs := h.signs

/-- Held operators go out. -/
theorem emit {out kept : List Token} (h : Carries output (out ++ kept) ts) : Carries (output ++ out) kept ts where
  perm := by
    rw [List.append_assoc]
    exact h.perm
  names_eq := by
    have hnone : out.filter (·.kind = .name) = [] := by
      refine List.filter_eq_nil_iff.2 fun u hu => ?_
      simp [h.signs u (List.mem_append_left kept hu)]
    rw [List.filter_append, hnone, List.append_nil, h.names_eq]
  signs u hu := h.signs u (List.mem_append_right out hu)

/-- One token keeps what is left. -/
theorem takes (h : Carries s.output (Held.signs s.held) ts) (hs : Takes s t s') :
    Carries s'.output (Held.signs s'.held) (ts ++ [t]) := by
  cases hs with
  | name ht => exact h.name ht
  | not ht => exact h.operator ht.1
  | opening ht => exact h.parenthesis (.inl ht)
  | binary ht hout _ =>
    rw [Held.signs_append, Held.signs_of_forms hout] at h
    exact h.emit.operator ht.1
  | closing ht hout =>
    rw [Held.signs_append, Held.signs_of_forms hout] at h
    exact h.emit.parenthesis (.inr ht)

/-- A run keeps what is left. -/
theorem run (h : Carries s.output (Held.signs s.held) ts) (hs : us.foldlM step s = .ok s') :
    Carries s'.output (Held.signs s'.held) (ts ++ us) := by
  induction us generalizing s ts with
  | nil =>
    cases hs
    rwa [List.append_nil]
  | cons u us ih =>
    obtain ⟨mid, hmid, hs⟩ := Outcome.foldlM_cons_eq_ok_iff.1 hs
    have hrest := ih (h.takes (step_eq_ok_iff.1 hmid)) hs
    rwa [List.append_assoc] at hrest

/-- At the end everything is in the output. -/
theorem of_toPostfix (h : toPostfix ts = .ok post) : Carries post [] ts := by
  obtain ⟨s, hs, hfinish⟩ := Outcome.bind_eq_ok_iff.1 h
  obtain ⟨_, hheld, rfl⟩ := finish_eq_ok_iff.1 hfinish
  have hstart : Carries Reordering.start.output (Held.signs Reordering.start.held) [] :=
    ⟨.nil, rfl, by simp [Reordering.start, Held.signs]⟩
  have hcarries := hstart.run hs
  rw [Held.signs_of_forms hheld, ← List.append_nil (s.held.map Held.token)] at hcarries
  exact hcarries.emit

end Carries

end Reordering

/-- Postfix order and formulas are inverse to each other. Tokens assemble to a formula exactly if they list it
in postorder. What the reordering makes of infix tokens has all of them but the parentheses, with their
positions, the names in the order of the source, and it is such a listing, so that it always assembles. -/
theorem postfix_lists_formula :
    (∀ ts f, Formula.ofPostfix ts = .ok f ↔ ts.map Token.lexeme = f.postorder) ∧
    ∀ ts post, toPostfix ts = .ok post →
      post.Perm (ts.filter (!·.isParenthesis)) ∧
      post.filter (·.kind = .name) = ts.filter (·.kind = .name) ∧
      (∀ t ∈ post, t.isParenthesis = false) ∧
      ∃ f, post.map Token.lexeme = f.postorder ∧ Formula.ofPostfix post = .ok f := by
  refine ⟨fun ts f => Formula.ofPostfix_eq_ok_iff_postorder, fun ts post h => ?_⟩
  obtain ⟨hperm, hnames, _⟩ := Reordering.Carries.of_toPostfix h
  rw [List.append_nil] at hperm
  obtain ⟨f, _, hf⟩ := exists_derives_of_toPostfix h
  refine ⟨hperm, hnames, fun t ht => ?_, f, Formula.ofPostfix_eq_ok_iff_postorder.1 hf, hf⟩
  have hkept := hperm.mem_iff.1 ht
  simpa using (List.mem_filter.1 hkept).2

/-- In `p ∧ (q ∨ ¬p)` the two names `p` stand at different positions. -/
theorem postfix_lists_formula_group :
    let ts : List Token := [⟨.name, "p", 0⟩, ⟨.operator, "∧", 2⟩, ⟨.opening, "(", 4⟩, ⟨.name, "q", 5⟩,
      ⟨.operator, "∨", 7⟩, ⟨.operator, "¬", 9⟩, ⟨.name, "p", 10⟩, ⟨.closing, ")", 11⟩]
    let post : List Token := [⟨.name, "p", 0⟩, ⟨.name, "q", 5⟩, ⟨.name, "p", 10⟩, ⟨.operator, "¬", 9⟩,
      ⟨.operator, "∨", 7⟩, ⟨.operator, "∧", 2⟩]
    toPostfix ts = .ok post ∧ post.Perm (ts.filter (!·.isParenthesis)) ∧
      post.filter (·.kind = .name) = ts.filter (·.kind = .name) ∧
      post.map Token.lexeme = (Formula.binary .and (.var "p") (.binary .or (.var "q") (.not (.var "p")))).postorder := by
  intro ts post
  have h : toPostfix ts = .ok post := rfl
  have hf : Formula.ofPostfix post = .ok (.binary .and (.var "p") (.binary .or (.var "q") (.not (.var "p")))) := rfl
  obtain ⟨hperm, hnames, _⟩ := postfix_lists_formula.2 ts post h
  exact ⟨h, hperm, hnames, (postfix_lists_formula.1 post _).1 hf⟩

end Sentential
