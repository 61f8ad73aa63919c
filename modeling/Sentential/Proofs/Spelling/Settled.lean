import Sentential.Proofs.Spelling

/-!
# Normalized texts

No alias is left in a normalized text (`settled_normalize`). A canonical symbol begins no alias, so an
alias could only begin at a character that stood for itself. The longer aliases end in `->` or
`=>`, and where a `>` is left behind such a character, it stood there in the original text as
well, and the pass would have replaced both. The texts without aliases are those that normalization leaves as
they are (`normalize_eq_self_iff`).
-/

namespace Sentential.Spelling

/-- No alias occurs in the text. -/
def Settled (cs : List Char) : Prop := ∀ a ∈ aliases, ¬a.1 <:+: cs

variable {cs ds rest : List Char} {c : Char}

/-- A character is an alias of its canonical symbol, or it stands for itself. -/
theorem canonicalChar_cases (c : Char) : canonicalChar c = c ∨ ([c], canonicalChar c) ∈ aliases := by
  unfold canonicalChar
  split <;> first | exact .inl rfl | exact .inr (by decide)

/-- An alias begins with a character that does not stand for itself, or it is `->` or `=>`, or another alias
follows its first character. -/
theorem cons_mem_aliases {symbol : Char} (h : (c :: ds, symbol) ∈ aliases) :
    canonicalChar c ≠ c ∨ ((c = '-' ∨ c = '=') ∧ ds = ['>']) ∨ ∃ b ∈ aliases, ds = b.1 := by
  have hall : (aliases.all fun a => a.1.head?.all fun d =>
      canonicalChar d != d || (d == '-' || d == '=') && a.1.tail == ['>'] ||
        aliases.any fun b => a.1.tail == b.1) = true := by decide +kernel
  simpa [or_assoc] using List.all_eq_true.1 hall _ h

/-- A text in which no alias begins before a settled rest is settled. -/
theorem Settled.cons (h : Settled cs) (hc : ∀ ds symbol, (c :: ds, symbol) ∈ aliases → ¬ds <+: cs) :
    Settled (c :: cs) := by
  intro a ha hinfix
  rcases List.infix_cons_iff.1 hinfix with hprefix | hinfix
  · obtain ⟨spelling, symbol⟩ := a
    have hne : spelling ≠ [] := Spells.ne_nil (.inr ha)
    obtain ⟨d, ds, rfl⟩ := List.exists_cons_of_ne_nil hne
    obtain ⟨rfl, hds⟩ := List.cons_prefix_cons.1 hprefix
    exact hc ds symbol ha hds
  · exact h a ha hinfix

/-- A canonical symbol begins no alias. -/
theorem Settled.cons_symbol (h : Settled cs) (hc : c ∈ aliases.map Prod.snd) : Settled (c :: cs) := by
  obtain ⟨a, ha, rfl⟩ := List.mem_map.1 hc
  refine h.cons fun ds symbol hmem _ => ?_
  have hall : (aliases.all fun a => aliases.all fun b => b.1.head? != some a.2) = true := by decide +kernel
  simpa using List.all_eq_true.1 (List.all_eq_true.1 hall a ha) _ hmem

/-- A `>` that is left in a normalized text was there before. -/
theorem exists_eq_cons_of_normalize (h : normalize cs = '>' :: ds) : ∃ rest, cs = '>' :: rest := by
  have hsymbol : '>' ∉ aliases.map Prod.snd := by decide
  unfold normalize at h
  split at h
  case h_7 c rest _ _ _ _ _ _ =>
    obtain ⟨hc, _⟩ := List.cons.inj h
    rcases canonicalChar_cases c with hself | hmem
    · exact ⟨rest, by rw [← hc, hself]⟩
    · rw [hc] at hmem
      exact absurd (List.mem_map_of_mem hmem) hsymbol
  all_goals cases h

/-- No alias is left after normalization. -/
theorem settled_normalize (cs : List Char) : Settled (normalize cs) := by
  fun_induction normalize cs with
  | case7 c rest _ _ _ _ hconditional hdouble ih =>
    rcases canonicalChar_cases c with hself | hmem
    · rw [hself]
      refine ih.cons fun ds symbol hmem hprefix => ?_
      rcases cons_mem_aliases hmem with hne | ⟨hc, rfl⟩ | ⟨b, hb, rfl⟩
      · exact hne hself
      · obtain ⟨more, hmore⟩ := hprefix
        obtain ⟨rest', rfl⟩ := exists_eq_cons_of_normalize hmore.symm
        rcases hc with rfl | rfl
        · exact hconditional rest' rfl rfl
        · exact hdouble rest' rfl rfl
      · exact ih b hb hprefix.isInfix
    · exact ih.cons_symbol (List.mem_map_of_mem hmem)
  | case8 =>
    intro a ha hinfix
    exact Spells.ne_nil (.inr ha) (List.eq_nil_of_infix_nil hinfix)
  | _ rest ih => exact ih.cons_symbol (by decide)

/-- A text that begins with an alias is not settled. -/
theorem not_settled_append (a : List Char × Char) (ha : a ∈ aliases) (rest : List Char) :
    ¬Settled (a.1 ++ rest) := by
  intro h
  exact h a ha (List.prefix_append a.1 rest).isInfix

theorem Settled.of_cons (h : Settled (c :: cs)) : Settled cs := by
  intro a ha hinfix
  exact h a ha (List.infix_cons hinfix)

/-- Normalization changes exactly the texts in which an alias occurs. -/
theorem normalize_eq_self_iff : normalize cs = cs ↔ Settled cs := by
  constructor
  · intro h
    rw [← h]
    exact settled_normalize cs
  · intro h
    fun_induction normalize cs with
    | case1 rest => exact absurd h (not_settled_append (['<', '-', '>'], '↔') (by decide) rest)
    | case2 rest => exact absurd h (not_settled_append (['<', '=', '>'], '↔') (by decide) rest)
    | case3 rest => exact absurd h (not_settled_append (['&', '&'], '∧') (by decide) rest)
    | case4 rest => exact absurd h (not_settled_append (['|', '|'], '∨') (by decide) rest)
    | case5 rest => exact absurd h (not_settled_append (['-', '>'], '→') (by decide) rest)
    | case6 rest => exact absurd h (not_settled_append (['=', '>'], '→') (by decide) rest)
    | case7 c rest _ _ _ _ _ _ ih =>
      rcases canonicalChar_cases c with hself | hmem
      · rw [hself, ih h.of_cons]
      · exact absurd h (not_settled_append ([c], canonicalChar c) hmem rest)
    | case8 => rfl

/-- The characters of the aliases of several characters. -/
def compound : List Char := ['&', '|', '<', '-', '=', '>']

/-- A cut is no place inside an alias if one of the characters beside it is in no alias of several
characters. -/
theorem apart_of_compound {xs ys : List Char}
    (h : xs = [] ∨ ys = [] ∨ (∀ c ∈ xs.getLast?, c ∉ compound) ∨ ∀ d ∈ ys.head?, d ∉ compound) :
    Apart xs ys := by
  have hheads : ∀ c ∈ heads, c ∈ compound := by simp [heads, compound]
  have hjoints : ∀ c ∈ joints, c ∈ compound := by simp [joints, compound]
  intro c hc hhead d hd hjoint
  rcases h with rfl | rfl | hlast | hfirst
  · cases hc
  · cases hd
  · exact hlast c hc (hheads c hhead)
  · exact hfirst d hd (hjoints d hjoint)

/-- No alias occurs in a normalized text, so normalizing it again changes nothing. Two texts may be normalized
together or one by one if one of them is empty, or if one of the characters at which they meet is in
no alias of several characters. -/
theorem normalization_settles :
    (∀ s : String, (∀ a ∈ aliases, ¬a.1 <:+: (normalized s).toList) ∧ normalized (normalized s) = normalized s) ∧
    ∀ s t : String, (s = "" ∨ t = "" ∨ (∀ c ∈ s.toList.getLast?, c ∉ compound) ∨
        ∀ d ∈ t.toList.head?, d ∉ compound) →
      normalized (s ++ t) = normalized s ++ normalized t := by
  refine ⟨fun s => ⟨?_, ?_⟩, fun s t h => ?_⟩
  · rw [normalized, String.toList_ofList]
    exact settled_normalize s.toList
  · rw [normalized, normalized, String.toList_ofList, normalize_eq_self_iff.2 (settled_normalize s.toList)]
  · have hapart : Apart s.toList t.toList := by
      refine apart_of_compound ?_
      rwa [String.toList_eq_nil_iff, String.toList_eq_nil_iff]
    rw [normalized, normalized, normalized, String.toList_append, normalize_append_of_apart hapart,
      String.ofList_append]

/-- The fragments `<` and `-` are left of `<<-->`, and behind `)` the text `>` may be normalized on its own. -/
theorem normalization_settles_fragments :
    normalized "(<<-->)" = "(<<-→)" ∧ normalized "(<<-→)" = "(<<-→)" ∧
      (∀ c ∈ "(<<-->)".toList.getLast?, c ∉ compound) ∧
      normalized ("(<<-->)" ++ ">|") = "(<<-→)" ++ normalized ">|" := by
  have hfirst : normalized "(<<-->)" = "(<<-→)" := by decide +kernel
  have hlast : ∀ c ∈ "(<<-->)".toList.getLast?, c ∉ compound := by simp [compound]
  obtain ⟨hagain, hcut⟩ := normalization_settles
  have hsettled := (hagain "(<<-->)").2
  have hsplit := hcut "(<<-->)" ">|" (.inr (.inr (.inl hlast)))
  rw [hfirst] at hsettled hsplit
  exact ⟨hfirst, hsettled, hlast, hsplit⟩

end Sentential.Spelling
