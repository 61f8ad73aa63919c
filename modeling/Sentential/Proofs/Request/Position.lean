import Sentential.Proofs.Request.Refusal
import Sentential.Proofs.Token.Position

/-!
# Positions of refused requests

A fault with a position comes from reading the expression, and its position counts in the normalized
expression. `Fault.PointsInto` says that what the fault reports stands there, and `Unreadable.pointsInto`
shows it for the stages of reading one after the other. Steps are read again from shorter texts, with
positions of their own. But nothing behind the first reading fails, so none of those reaches a report.
-/

namespace Sentential

/-- At position `i` of the text stands what the fault reports: its offending text, where it names one, and a
parenthesis, where it reports that one has no partner. -/
def Fault.PointsInto (f : Fault) (cs : List Char) (i : Int) : Prop :=
  ∃ s, Text.StandsAt s cs i ∧ (∀ t, f.token = some t → t = s) ∧
    (f.kind = .unbalancedParentheses → s = "(" ∨ s = ")")

namespace Fault.PointsInto

variable {f : Fault} {cs : List Char} {i : Int}

/-- Where the fault names a text that stands there, and does not report parentheses, it points at it. -/
theorem of_token {s : String} (h : Text.StandsAt s cs i) (ht : f.token = some s)
    (hk : f.kind ≠ .unbalancedParentheses) : f.PointsInto cs i := by
  refine ⟨s, h, fun t hf => ?_, fun heq => absurd heq hk⟩
  exact Option.some.inj (hf.symm.trans ht)

/-- A fault that reports an unbalanced parenthesis points at one. -/
theorem getElem? (h : f.PointsInto cs i) (hk : f.kind = .unbalancedParentheses) :
    cs[i.toNat]? = some '(' ∨ cs[i.toNat]? = some ')' := by
  obtain ⟨s, ⟨_, before, after, rfl, rfl⟩, _, hs⟩ := h
  rcases hs hk with rfl | rfl
  · exact .inl (by simp)
  · exact .inr (by simp)

end Fault.PointsInto

/-- The faults of the names have no position. -/
theorem Variables.Refused.position_eq_none {names : List String} {ceiling : Int} {f : Fault}
    (h : Refused names ceiling f) : f.position = none := by
  cases h with
  | empty _ => rfl
  | flawed _ _ hf => cases hf <;> rfl
  | contained _ _ _ _ _ _ => rfl
  | tooMany _ _ _ _ => rfl

variable {declared : List String} {f : Fault} {pos : Int}

/-- A bracket without a partner stands where its fault says, and after normalization it is a parenthesis. -/
theorem Bracket.FirstUnmatched.pointsInto {source : List Char} {i : Nat}
    (h : FirstUnmatched (Spelling.normalize source) i) :
    (Fault.unbalanced i).PointsInto (Spelling.normalize source) i := by
  obtain ⟨⟨⟨c, hc, hbracket⟩, _⟩, _⟩ := h
  obtain ⟨hopen, hclose⟩ := Spelling.ne_brace_of_mem_normalize (List.mem_of_getElem? hc)
  have hparenthesis : c = '(' ∨ c = ')' := by
    rcases hbracket with h | h
    · exact .inl ((isOpening_iff.1 h).resolve_right hopen)
    · exact .inr ((isClosing_iff.1 h).resolve_right hclose)
  refine ⟨String.ofList [c], .of_getElem? hc, fun t ht => ?_, fun _ => ?_⟩
  · cases ht
  · rcases hparenthesis with rfl | rfl
    · exact .inl rfl
    · exact .inr rfl

/-- What is reported about a normalized text at a position stands there, stage by stage. -/
theorem Unreadable.pointsInto {source : List Char} (h : Unreadable declared (Spelling.normalize source) f)
    (hp : f.position = some pos) : f.PointsInto (Spelling.normalize source) pos := by
  cases h with
  | brackets h =>
    obtain rfl := Option.some.inj hp
    exact h.pointsInto
  | characters _ h =>
    have hkind := h.1.kind_mem
    obtain ⟨s, ht, hi, hs⟩ := h.1.standsAt
    obtain rfl := Option.some.inj (hi.symm.trans hp)
    refine .of_token hs ht fun hk => ?_
    simp [hk] at hkind
  | grammar hb hs _ hk h =>
    have hsides := hb.depth_eq
    rw [← hs.sides_eq] at hsides
    obtain ⟨g, heq, hg⟩ := malformed_of_toPostfix (fun t ht => hs.canonical_of_mem ht) hsides h
    cases heq
    obtain ⟨t, ht, rfl, hvalue⟩ := hg.exists_reported hp
    have hstands := hs.standsAt ht
    rw [Int.natCast_zero, Int.sub_zero] at hstands
    refine .of_token hstands hvalue fun hunbalanced => ?_
    cases hk.symm.trans hunbalanced

namespace Request

variable {r : Request} {settings : Settings}

/-- A request that is refused with a position is refused for its expression. -/
theorem Refused.unreadable (h : r.Refused settings f) (hp : f.position = some pos) :
    Text.isBlankText r.expression = false ∧ Variables.Accepted r.names settings.maxVariables ∧
      Unreadable r.names r.normalized f := by
  cases h with
  | blank _ => cases hp
  | names _ h => cases h.position_eq_none.symm.trans hp
  | expression hb ha h => exact ⟨hb, ha, h⟩

/-- Positions of refused requests point at the reported text in the normalized expression. They are inside
it; the offending text, where one is reported, stands there; and a parenthesis stands there that is
reported as unbalanced. The fault is the one that reading the expression itself reports, with and
without steps, so no position counts in a shorter text. -/
theorem positions_point_at_text (h : r.evaluate settings = .error (.fault f)) (hp : f.position = some pos) :
    (0 ≤ pos ∧ pos < r.normalized.length) ∧
    (∀ text, f.token = some text → (r.normalized.drop pos.toNat).take text.length = text.toList) ∧
    (f.kind = .unbalancedParentheses →
      r.normalized[pos.toNat]? = some '(' ∨ r.normalized[pos.toNat]? = some ')') ∧
    parse (Text.trimmed r.expression) r.names = .error (.fault f) ∧
    ∀ showSteps, { r with showSteps := showSteps }.evaluate settings = .error (.fault f) := by
  obtain ⟨g, heq, hrefused⟩ := error_iff_refused.1 h
  cases heq
  obtain ⟨hb, ha, hunreadable⟩ := hrefused.unreadable hp
  have hpoints := hunreadable.pointsInto hp
  have hparenthesis := hpoints.getElem?
  obtain ⟨s, hstands, htoken, _⟩ := hpoints
  refine ⟨hstands.bounds, fun text ht => ?_, hparenthesis, ?_, fun showSteps => ?_⟩
  · obtain rfl := htoken text ht
    exact hstands.drop_take
  · have hblank := (Text.isBlankText_trimmed r.expression).trans hb
    exact (parse_eq_error_iff hblank).2 ⟨f, rfl, hunreadable⟩
  · exact error_iff_refused.2 ⟨f, rfl, .expression hb ha hunreadable⟩

/-- The second name of ` {p <-> q} && !p  q` has no operator in front of it. It stands at position 14 of the
normalized expression `(p ↔ q) ∧ ¬p  q`, which is shorter than the typed one. -/
theorem positions_point_at_text_shortened :
    let r : Request := ⟨" {p <-> q} && !p  q", ["p", "q"], some true⟩
    let f : Fault := .misplaced .operator ⟨.name, "q", 14⟩
    r.evaluate { } = .error (.fault f) ∧ f.position = some 14 ∧ (r.normalized.drop 14).take 1 = ['q'] := by
  intro r f
  have hfails : (r.evaluate { }).fault? = some f := by decide +kernel
  have hf := Outcome.fault?_eq_some_iff.1 hfails
  exact ⟨hf, rfl, (positions_point_at_text hf rfl).2.1 "q" rfl⟩

end Request

end Sentential
