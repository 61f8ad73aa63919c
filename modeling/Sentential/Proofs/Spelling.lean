import Sentential.Proofs.Bracket.Depth
import Sentential.Spelling
import Sentential.Text.Blank

/-!
# Normalization and cutting

Brackets are single characters and no part of a longer alias, so normalization keeps the sides
of all brackets (`sides_normalize`). A text may be cut before or after it is normalized wherever no
alias reaches over the cut (`normalize_append_of_apart`), as in front of a bracket. Of the brackets only
parentheses are left (`ne_brace_of_mem_normalize`). A text that shares no character with the aliases
stays as it is (`normalize_eq_self`).
-/

namespace Sentential.Spelling

/-- The characters that begin an alias of several characters. -/
def heads : List Char := ['<', '&', '|', '-', '=']

/-- The characters that continue an alias of several characters. -/
def joints : List Char := ['-', '=', '>', '&', '|']

/-- A character that begins no alias of several characters is replaced on its own. -/
theorem normalize_cons {c : Char} (h : c ∉ heads) (cs : List Char) :
    normalize (c :: cs) = canonicalChar c :: normalize cs := by
  simp only [heads, List.mem_cons, List.not_mem_nil, or_false, not_or] at h
  obtain ⟨h1, h2, h3, h4, h5⟩ := h
  rw [normalize] <;> intros <;> contradiction

/-- No alias of several characters reaches over the place between two texts: the last character of the first
begins none, or the first character of the second continues none. -/
def Apart (xs ys : List Char) : Prop := ∀ c ∈ xs.getLast?, c ∈ heads → ∀ d ∈ ys.head?, d ∉ joints

theorem Apart.tail {c : Char} {xs ys : List Char} (h : Apart (c :: xs) ys) : Apart xs ys := by
  intro d hd
  have hxs : xs ≠ [] := by
    rintro rfl
    cases hd
  refine h d ?_
  rwa [List.getLast?_cons_of_ne_nil hxs]

/-- Where two texts are apart, what continues an alias of the first stands in the first. -/
theorem Apart.exists_eq_cons {c d : Char} {xs ys more : List Char} (h : Apart (c :: xs) ys) (hc : c ∈ heads)
    (hd : d ∈ joints) (heq : xs ++ ys = d :: more) : ∃ rest, xs = d :: rest ∧ rest ++ ys = more := by
  cases xs with
  | nil =>
    rw [List.nil_append] at heq
    exact absurd hd (h c rfl hc d (by simp [heq]))
  | cons x xs =>
    rw [List.cons_append, List.cons.injEq] at heq
    obtain ⟨rfl, heq⟩ := heq
    exact ⟨xs, rfl, heq⟩

/-- Texts that are apart are normalized each on its own. -/
theorem normalize_append_of_apart {xs ys : List Char} (h : Apart xs ys) :
    normalize (xs ++ ys) = normalize xs ++ normalize ys := by
  fun_induction normalize xs with
  | case1 rest ih => exact congrArg _ (ih h.tail.tail.tail)
  | case2 rest ih => exact congrArg _ (ih h.tail.tail.tail)
  | case3 rest ih => exact congrArg _ (ih h.tail.tail)
  | case4 rest ih => exact congrArg _ (ih h.tail.tail)
  | case5 rest ih => exact congrArg _ (ih h.tail.tail)
  | case6 rest ih => exact congrArg _ (ih h.tail.tail)
  | case7 c rest h1 h2 h3 h4 h5 h6 ih =>
    -- A longer alias at `c` would stand in `c :: rest` already, where the pass did not find it.
    have hpair : ∀ {d : Char} {more : List Char}, c ∈ heads → d ∈ joints → rest ++ ys = d :: more →
        ∃ more', rest = d :: more' := by
      intro d more hc hd heq
      obtain ⟨more', hrest, _⟩ := h.exists_eq_cons hc hd heq
      exact ⟨more', hrest⟩
    have htriple : ∀ {d e : Char} {more : List Char}, c ∈ heads → d ∈ joints → d ∈ heads → e ∈ joints →
        rest ++ ys = d :: e :: more → ∃ more', rest = d :: e :: more' := by
      intro d e more hc hd hd' he heq
      obtain ⟨rest', rfl, hrest⟩ := h.exists_eq_cons hc hd heq
      obtain ⟨more', rfl, _⟩ := h.tail.exists_eq_cons hd' he hrest
      exact ⟨more', rfl⟩
    rw [List.cons_append, normalize, ih h.tail]
    · rfl
    · rintro more rfl heq
      obtain ⟨more', heq⟩ := htriple (by decide) (by decide) (by decide) (by decide) heq
      exact h1 more' rfl heq
    · rintro more rfl heq
      obtain ⟨more', heq⟩ := htriple (by decide) (by decide) (by decide) (by decide) heq
      exact h2 more' rfl heq
    · rintro more rfl heq
      obtain ⟨more', heq⟩ := hpair (by decide) (by decide) heq
      exact h3 more' rfl heq
    · rintro more rfl heq
      obtain ⟨more', heq⟩ := hpair (by decide) (by decide) heq
      exact h4 more' rfl heq
    · rintro more rfl heq
      obtain ⟨more', heq⟩ := hpair (by decide) (by decide) heq
      exact h5 more' rfl heq
    · rintro more rfl heq
      obtain ⟨more', heq⟩ := hpair (by decide) (by decide) heq
      exact h6 more' rfl heq
  | case8 => rfl

/-- No alias reaches over a place where the next character continues none. -/
theorem normalize_append {xs ys : List Char} (h : ∀ c ∈ ys.head?, c ∉ joints) :
    normalize (xs ++ ys) = normalize xs ++ normalize ys :=
  normalize_append_of_apart fun _ _ _ => h

/-- A brace stands for the parenthesis of its side; no other bracket is an alias. -/
theorem side?_canonicalChar (c : Char) : Bracket.side? (canonicalChar c) = Bracket.side? c := by
  unfold canonicalChar
  split <;> rfl

/-- Normalization keeps the sides of the brackets. -/
theorem sides_normalize (cs : List Char) : Bracket.sides (normalize cs) = Bracket.sides cs := by
  fun_induction normalize cs with
  | case7 c rest _ _ _ _ _ _ ih =>
    simp only [Bracket.sides, List.filterMap_cons, side?_canonicalChar] at ih ⊢
    rw [ih]
  | case8 => rfl
  | _ rest ih => exact ih

/-- No canonical symbol is a brace. -/
theorem canonicalChar_ne_brace (c : Char) : canonicalChar c ≠ '{' ∧ canonicalChar c ≠ '}' := by
  unfold canonicalChar
  split <;> first | decide | exact ⟨‹_›, ‹_›⟩

/-- After normalization there are no braces left. -/
theorem ne_brace_of_mem_normalize {cs : List Char} {c : Char} (h : c ∈ normalize cs) : c ≠ '{' ∧ c ≠ '}' := by
  fun_induction normalize cs with
  | case7 d rest _ _ _ _ _ _ ih =>
    rcases List.mem_cons.1 h with rfl | h
    · exact canonicalChar_ne_brace d
    · exact ih h
  | case8 => cases h
  | _ rest ih =>
    rcases List.mem_cons.1 h with rfl | h
    · decide
    · exact ih h

/-- An opening bracket is replaced on its own and continues no alias. -/
theorem normalize_cons_of_isOpening {o : Char} (h : Bracket.isOpening o = true) (cs : List Char) :
    normalize (o :: cs) = '(' :: normalize cs ∧ o ∉ joints := by
  rcases Bracket.isOpening_iff.1 h with rfl | rfl
  · exact ⟨normalize_cons (by decide) cs, by decide⟩
  · exact ⟨normalize_cons (by decide) cs, by decide⟩

/-- A closing bracket is replaced on its own and continues no alias. -/
theorem normalize_cons_of_isClosing {c : Char} (h : Bracket.isClosing c = true) (cs : List Char) :
    normalize (c :: cs) = ')' :: normalize cs ∧ c ∉ joints := by
  rcases Bracket.isClosing_iff.1 h with rfl | rfl
  · exact ⟨normalize_cons (by decide) cs, by decide⟩
  · exact ⟨normalize_cons (by decide) cs, by decide⟩

/-- Cutting at a pair of brackets and normalizing may be done in either order. -/
theorem normalize_group {before inner after : List Char} {o c : Char} (ho : Bracket.isOpening o = true)
    (hc : Bracket.isClosing c = true) : normalize (before ++ o :: (inner ++ c :: after)) =
      normalize before ++ '(' :: (normalize inner ++ ')' :: normalize after) := by
  obtain ⟨hopen, hojoint⟩ := normalize_cons_of_isOpening ho (inner ++ c :: after)
  obtain ⟨hclose, hcjoint⟩ := normalize_cons_of_isClosing hc after
  rw [normalize_append (by simpa using hojoint), hopen, normalize_append (by simpa using hcjoint), hclose]

/-- The characters of the aliases. -/
def characters : List Char := aliases.flatMap (·.1)

/-- A character that occurs in no alias begins none, continues none, and stands for itself. -/
theorem plain_of_not_mem_characters {c : Char} (h : c ∉ characters) :
    c ∉ heads ∧ c ∉ joints ∧ canonicalChar c = c := by
  have hheads : ∀ d ∈ heads, d ∈ characters := by simp [heads, characters, aliases]
  have hjoints : ∀ d ∈ joints, d ∈ characters := by simp [joints, characters, aliases]
  refine ⟨fun hc => h (hheads c hc), fun hc => h (hjoints c hc), ?_⟩
  unfold canonicalChar
  split <;> first | rfl | exact absurd (by decide) h

/-- A class of characters none of which occurs in an alias. -/
theorem not_mem_characters_of_class {p : Char → Bool} (hp : characters.all (!p ·) = true) {c : Char}
    (h : p c = true) : c ∉ characters :=
  fun hc => by simpa [h] using List.all_eq_true.1 hp c hc

theorem not_mem_characters_of_isLetter {c : Char} (h : Text.isLetter c = true) : c ∉ characters :=
  not_mem_characters_of_class (by decide +kernel) h

theorem not_mem_characters_of_isBlank {c : Char} (h : Text.isBlank c = true) : c ∉ characters :=
  not_mem_characters_of_class (by decide +kernel) h

/-- A text of characters that occur in no alias stays as it is. -/
theorem normalize_eq_self {cs : List Char} (h : ∀ c ∈ cs, c ∉ characters) : normalize cs = cs := by
  induction cs with
  | nil => rfl
  | cons c cs ih =>
    obtain ⟨hheads, _, hcanonical⟩ := plain_of_not_mem_characters (h c List.mem_cons_self)
    rw [normalize_cons hheads, hcanonical, ih fun d hd => h d (List.mem_cons_of_mem _ hd)]

/-- Letters stay as they are. -/
theorem normalize_of_isLetter {cs : List Char} (h : ∀ c ∈ cs, Text.isLetter c = true) :
    normalize cs = cs :=
  normalize_eq_self fun c hc => not_mem_characters_of_isLetter (h c hc)

/-- A text in which no alias of several characters begins may be cut at its end. -/
theorem normalize_append_of_not_heads {xs : List Char} (h : ∀ c ∈ xs, c ∉ heads) (ys : List Char) :
    normalize (xs ++ ys) = normalize xs ++ normalize ys :=
  normalize_append_of_apart fun c hc hhead => absurd hhead (h c (List.mem_of_getLast? hc))

/-- A text of characters that occur in no alias stays as it is between any two others. -/
theorem normalize_append_plain {xs ms ys : List Char} (hne : ms ≠ []) (h : ∀ c ∈ ms, c ∉ characters) :
    normalize (xs ++ (ms ++ ys)) = normalize xs ++ (ms ++ normalize ys) := by
  have hjoints : ∀ c ∈ (ms ++ ys).head?, c ∉ joints := by
    obtain ⟨m, ms, rfl⟩ := List.exists_cons_of_ne_nil hne
    simpa using (plain_of_not_mem_characters (h m List.mem_cons_self)).2.1
  have hheads : ∀ c ∈ ms, c ∉ heads := fun c hc => (plain_of_not_mem_characters (h c hc)).1
  rw [normalize_append hjoints, normalize_append_of_not_heads hheads, normalize_eq_self h]

namespace Spells

variable {cs : List Char} {symbol : Char}

theorem ne_nil (h : Spells cs symbol) : cs ≠ [] := by
  rcases h with rfl | h
  · exact List.cons_ne_nil _ _
  · have hall : (aliases.all fun a => !a.1.isEmpty) = true := by decide
    simpa using List.all_eq_true.1 hall _ h

/-- Every spelling of a symbol is replaced by the symbol, unless the symbol is itself part of an alias. -/
theorem normalize_eq (h : Spells cs symbol) (hs : symbol ∉ characters) : normalize cs = [symbol] := by
  rcases h with rfl | h
  · exact normalize_eq_self (by simpa using hs)
  · exact normalize_of_mem_aliases h

/-- A spelling of the negation or of a parenthesis begins no longer alias and continues none. -/
theorem plain_of_mem (h : Spells cs symbol) (hs : symbol ∈ ['¬', '(', ')']) {c : Char} (hc : c ∈ cs) :
    c ∉ heads ∧ c ∉ joints := by
  have hall : ∀ a ∈ aliases, a.2 ∈ ['¬', '(', ')'] → ∀ d ∈ a.1, d ∉ heads ∧ d ∉ joints := by
    simp [aliases, heads, joints]
  have hself : ∀ d ∈ ['¬', '(', ')'], d ∉ heads ∧ d ∉ joints := by simp [heads, joints]
  rcases h with rfl | h
  · obtain rfl := List.mem_singleton.1 hc
    exact hself c hs
  · exact hall _ h hs c hc

end Spells

end Sentential.Spelling
