import Sentential.Proofs.Parsed.Refusal
import Sentential.Proofs.Steps.Neutral
import Sentential.Proofs.Variables.Refusal

/-!
# Refused requests

A request is refused for the first thing that is wrong with it, in a fixed order: a blank expression, the
names, the brackets, the characters, the grammar. `Request.Refused` lists these stages without running
them, and `Request.error_iff_refused` says that a request fails exactly with the fault of its stage and in
no other way. Everything behind the grammar succeeds: the columns of the steps can be read again, every
variable has a value in every row, and the column of results is not empty.
-/

namespace Sentential

open Grammar (Derives)

/-! ## Categories of the stages -/

/-- The category of a fault of the names. -/
theorem Variables.Refused.kind_mem {names : List String} {ceiling : Int} {f : Fault}
    (h : Refused names ceiling f) : f.kind ∈ [Fault.Kind.noVariablesDeclared, .invalidVariableName,
      .duplicateVariable, .tooManyVariables] := by
  cases h with
  | empty _ => decide
  | flawed _ _ hf => cases hf <;> simp [Fault.kind]
  | contained _ _ _ _ _ _ => simp [Fault.kind]
  | tooMany _ _ _ _ => simp [Fault.kind]

/-- The category of a fault of a place without a token. -/
theorem Token.Offends.kind_mem {declared : List String} {cs : List Char} {i : Nat} {f : Fault}
    (h : Offends declared cs i f) : f.kind ∈ [Fault.Kind.unknownVariable, .invalidCharacter] := by
  cases h <;> simp [Fault.kind]

/-- The category of a fault of a normalized text. -/
theorem Unreadable.kind_mem {declared : List String} {cs : List Char} {f : Fault}
    (h : Unreadable declared cs f) : f.kind ∈ [Fault.Kind.unbalancedParentheses, .unknownVariable,
      .invalidCharacter, .malformedExpression] := by
  cases h with
  | brackets _ => simp [Fault.kind]
  | characters _ h =>
    have hkind := h.1.kind_mem
    simp only [List.mem_cons, List.not_mem_nil, or_false] at hkind ⊢
    rcases hkind with hkind | hkind <;> simp [hkind]
  | grammar _ _ _ hk _ => simp [hk]

namespace Request

/-! ## The stages -/

/-- The expression of a request in its normalized form, without the blanks around it. -/
def normalized (r : Request) : List Char := Spelling.normalize (Text.trimmed r.expression).toList

/-- Why a request is refused: the fault of the first stage that does not accept it. Whether steps are asked
for does not matter. -/
inductive Refused (r : Request) (settings : Settings) : Fault → Prop
  | blank (h : Text.isBlankText r.expression = true) : Refused r settings .emptyExpression
  | names {f : Fault} (hb : Text.isBlankText r.expression = false)
      (h : Variables.Refused r.names settings.maxVariables f) : Refused r settings f
  | expression {f : Fault} (hb : Text.isBlankText r.expression = false)
      (ha : Variables.Accepted r.names settings.maxVariables) (h : Unreadable r.names r.normalized f) :
      Refused r settings f

/-- The stages before the grammar accept the request and leave these tokens. -/
structure Tokenizes (r : Request) (settings : Settings) (ts : List Token) : Prop where
  notBlank : Text.isBlankText r.expression = false
  accepted : Variables.Accepted r.names settings.maxVariables
  balanced : Bracket.Balanced r.normalized
  scans : Token.Scans r.names false 0 r.normalized ts

variable {r : Request} {settings : Settings} {ts : List Token} {g : Formula} {e : Failure} {f : Fault}

/-- A request whose tokens form a formula is answered. -/
theorem Tokenizes.exists_answer (h : r.Tokenizes settings ts) (hg : Derives .equivalence ts g) :
    ∃ a, r.evaluate settings = .ok a := by
  have hblank : Text.isBlankText (Text.trimmed r.expression) = false := by
    rw [Text.isBlankText_trimmed]
    exact h.notBlank
  obtain ⟨p, hp, _⟩ := exists_parse_of_scans hblank h.scans hg
  obtain ⟨verdict, hverdict⟩ := TruthTable.exists_verdict p.formula (Text.trimmed r.expression) r.names []
  have hvalid := Variables.validate_eq_ok_iff_accepted.2 ⟨rfl, h.accepted⟩
  obtain ⟨_, _, _, ha⟩ := evaluate_eq_ok_of_parse r h.notBlank hvalid hp hverdict
  exact ⟨_, ha⟩

/-- An answered request has tokens that form a formula. -/
theorem exists_tokenizes_of_answer {a : Evaluation} (h : r.evaluate settings = .ok a) :
    ∃ ts g, r.Tokenizes settings ts ∧ Derives .equivalence ts g := by
  have hstages := evaluate_eq_ok_iff.1 h
  have hparsed := parse_eq_ok_iff.1 hstages.parsed
  have haccepted := (Variables.validate_eq_ok_iff_accepted.1 hstages.valid).2
  have hbalanced := Bracket.firstUnbalanced_eq_none_iff_balanced.1 hparsed.balanced
  exact ⟨_, _, ⟨hstages.notBlank, haccepted, hbalanced, hparsed.scans⟩, hparsed.derives⟩

/-- A request fails exactly with the fault of the first stage that does not accept it. -/
theorem error_iff_refused : r.evaluate settings = .error e ↔ ∃ f, e = .fault f ∧ r.Refused settings f := by
  have hblank : Text.isBlankText (Text.trimmed r.expression) = Text.isBlankText r.expression :=
    Text.isBlankText_trimmed r.expression
  constructor
  · intro hfails
    have h := hfails
    rw [evaluate_eq] at h
    split at h
    next hb => exact ⟨_, (Except.error.inj h).symm, .blank hb⟩
    next hb =>
      have hb : Text.isBlankText r.expression = false := by simpa using hb
      rcases Outcome.bind_eq_error_iff.1 h with h | ⟨names, hvalid, h⟩
      · obtain ⟨f, rfl, hf⟩ := Variables.validate_eq_error_iff.1 h
        exact ⟨f, rfl, .names hb hf⟩
      · obtain ⟨rfl, haccepted⟩ := Variables.validate_eq_ok_iff_accepted.1 hvalid
        rcases Outcome.bind_eq_error_iff.1 h with h | ⟨p, hp, _⟩
        · obtain ⟨f, rfl, hf⟩ := (parse_eq_error_iff (hblank.trans hb)).1 h
          exact ⟨f, rfl, .expression hb haccepted hf⟩
        · -- What is read is answered, so nothing behind the reading can have failed.
          have hparsed := parse_eq_ok_iff.1 hp
          have hbalanced := Bracket.firstUnbalanced_eq_none_iff_balanced.1 hparsed.balanced
          have htokenizes : r.Tokenizes settings p.tokens := ⟨hb, haccepted, hbalanced, hparsed.scans⟩
          obtain ⟨a, ha⟩ := htokenizes.exists_answer hparsed.derives
          cases hfails.symm.trans ha
  · rintro ⟨f, rfl, hf⟩
    rw [evaluate_eq]
    cases hf with
    | blank h => exact if_pos h
    | names hb h =>
      rw [if_neg (by simp [hb])]
      exact Outcome.bind_eq_error_iff.2 (.inl (Variables.validate_eq_error_iff.2 ⟨f, rfl, h⟩))
    | expression hb ha h =>
      have hvalid := Variables.validate_eq_ok_iff_accepted.2 ⟨rfl, ha⟩
      have hparse := (parse_eq_error_iff (hblank.trans hb)).2 ⟨f, rfl, h⟩
      rw [if_neg (by simp [hb])]
      exact Outcome.bind_eq_error_iff.2 (.inr ⟨r.names, hvalid, Outcome.bind_eq_error_iff.2 (.inl hparse)⟩)

/-- Only the grammar calls an expression malformed. -/
theorem Refused.exists_tokens (h : r.Refused settings f) (hk : f.kind = .malformedExpression) :
    ∃ ts, r.Tokenizes settings ts ∧ ¬∃ g, Derives .equivalence ts g := by
  cases h with
  | blank _ => cases hk
  | names _ h =>
    have hkind := h.kind_mem
    simp [hk] at hkind
  | expression hb ha h =>
    cases h with
    | brackets _ => cases hk
    | characters _ h =>
      have hkind := h.1.kind_mem
      simp [hk] at hkind
    | grammar hbalanced hs hd _ _ => exact ⟨_, ⟨hb, ha, hbalanced, hs⟩, hd⟩

/-- Tokens that form no formula are refused as malformed. -/
theorem Tokenizes.exists_refused (h : r.Tokenizes settings ts) (hd : ¬∃ g, Derives .equivalence ts g) :
    ∃ f, r.Refused settings f ∧ f.kind = .malformedExpression := by
  cases hpost : toPostfix ts with
  | ok post =>
    obtain ⟨g, hg, _⟩ := exists_derives_of_toPostfix hpost
    exact absurd ⟨g, hg⟩ hd
  | error e =>
    have hsides : Bracket.depth 0 (Bracket.sidesOfTokens ts) = some 0 := by
      rw [h.scans.sides_eq]
      exact h.balanced.depth_eq
    obtain ⟨f, rfl, hf⟩ := malformed_of_toPostfix (fun t ht => h.scans.canonical_of_mem ht) hsides hpost
    exact ⟨f, .expression h.notBlank h.accepted (.grammar h.balanced h.scans hd hf.kind_eq hpost), hf.kind_eq⟩

theorem Refused.kind_ne (h : r.Refused settings f) :
    f.kind ≠ .unboundVariable ∧ f.kind ≠ .unrecognizedStructure := by
  have hne : ∀ ks : List Fault.Kind, f.kind ∈ ks → .unboundVariable ∉ ks → .unrecognizedStructure ∉ ks →
      f.kind ≠ .unboundVariable ∧ f.kind ≠ .unrecognizedStructure :=
    fun ks hk hu hs => ⟨fun heq => hu (heq ▸ hk), fun heq => hs (heq ▸ hk)⟩
  cases h with
  | blank _ => decide
  | names _ h => exact hne _ h.kind_mem (by decide) (by decide)
  | expression _ _ h => exact hne _ h.kind_mem (by decide) (by decide)

/-! ## Brackets of the typed text -/

/-- Where groups are looked for, every bracket that closes finds one open. -/
theorem exists_matched_of_groups {source : List Char} {gs : List (List Char)}
    (h : Steps.groups source = .ok gs) {before after : List Char} {c : Char}
    (hsource : source = before ++ c :: after) (hc : Bracket.isClosing c = true) :
    ∃ i, Bracket.Matched source i before.length := by
  obtain ⟨_, hchecked, _⟩ := Outcome.bind_eq_ok_iff.1 h
  have hbalanced : Bracket.Balanced source := by
    rw [← Bracket.firstUnbalanced_eq_none_iff_balanced]
    unfold Token.checkBalanced at hchecked
    split at hchecked
    next => cases hchecked
    next hnone => exact hnone
  subst hsource
  exact hbalanced.exists_matched hc

/-- The contract of a request. It is answered, or it fails with the fault of the first stage that does not
accept it: the blank expression, the names, the brackets, the characters, the grammar. An expression is
malformed exactly if its tokens form no formula, and answered exactly if they form one. No request
fails for a variable without a value, for a structure that is not known, or by anything other than a
fault, and the search for groups never closes a bracket with none open. -/
theorem fails_at_first_stage (r : Request) (settings : Settings) :
    (∀ e, r.evaluate settings = .error e ↔ ∃ f, e = .fault f ∧ r.Refused settings f) ∧
    (∀ f, r.Refused settings f → f.kind ≠ .unboundVariable ∧ f.kind ≠ .unrecognizedStructure) ∧
    ((∃ f : Fault, r.evaluate settings = .error (.fault f) ∧ f.kind = .malformedExpression) ↔
      ∃ ts, r.Tokenizes settings ts ∧ ¬∃ g, Derives .equivalence ts g) ∧
    ((∃ a, r.evaluate settings = .ok a) ↔ ∃ ts g, r.Tokenizes settings ts ∧ Derives .equivalence ts g) ∧
    (∀ source gs, Steps.groups source = .ok gs → ∀ before c after, source = before ++ c :: after →
      Bracket.isClosing c = true → ∃ i, Bracket.Matched source i before.length) := by
  refine ⟨fun e => error_iff_refused, fun f hf => hf.kind_ne, ?_, ?_, ?_⟩
  · constructor
    · rintro ⟨f, hfails, hk⟩
      obtain ⟨f, heq, hf⟩ := error_iff_refused.1 hfails
      cases heq
      exact hf.exists_tokens hk
    · rintro ⟨ts, hts, hd⟩
      obtain ⟨f, hf, hk⟩ := hts.exists_refused hd
      exact ⟨f, error_iff_refused.2 ⟨f, rfl, hf⟩, hk⟩
  · constructor
    · rintro ⟨a, ha⟩
      exact exists_tokenizes_of_answer ha
    · rintro ⟨ts, g, hts, hg⟩
      exact hts.exists_answer hg
  · intro source gs hgs before c after hsource hc
    exact exists_matched_of_groups hgs hsource hc

/-- The names of `p q` over `p` and `q` stand side by side, so its tokens form no formula. -/
theorem fails_at_first_stage_malformed :
    let r : Request := ⟨" p q", ["p", "q"], some true⟩
    ∃ ts, r.Tokenizes { } ts ∧ ¬∃ g, Derives .equivalence ts g := by
  intro r
  have hfails : (r.evaluate { }).fault? = some (.misplaced .operator ⟨.name, "q", 2⟩) := by decide +kernel
  exact (fails_at_first_stage r { }).2.2.1.1 ⟨_, Outcome.fault?_eq_some_iff.1 hfails, rfl⟩

end Request

end Sentential
