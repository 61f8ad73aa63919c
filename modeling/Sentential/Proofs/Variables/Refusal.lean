import Sentential.Proofs.Variables.Validation

/-!
# Refused declarations

`Accepted` says what a declaration must be like, and `Refused` names the fault of one that is not: the
first check that fails, at the first name at which it fails. The checks come in a fixed order. First the
names one by one, each against those before it (`Flaw`), then each single letter against all names
(`Inside`), and the ceiling last.
-/

namespace Sentential.Variables

/-- The names are words, each declared once. -/
structure WellFormed (names : List String) : Prop where
  words : ∀ name ∈ names, Text.isWord name = true
  nodup : names.Nodup

/-- What is wrong with a name behind the names `before`. -/
inductive Flaw (before : List String) (name : String) : Fault → Prop
  | notWord (h : Text.isWord name = false) : Flaw before name (.invalidName name)
  | again (hw : Text.isWord name = true) (h : name ∈ before) : Flaw before name (.repeatedVariable name)

/-- The name is a single letter that occurs in a different name. -/
def Inside (name other : String) : Prop := ∃ c, name.toList = [c] ∧ other ≠ name ∧ c ∈ other.toList

/-- No name is inside another. -/
def Separate (names : List String) : Prop := ∀ name ∈ names, ∀ other ∈ names, ¬Inside name other

/-- What a declaration must be like under a ceiling on the number of names. -/
structure Accepted (names : List String) (ceiling : Int) : Prop where
  ne_nil : names ≠ []
  wellFormed : WellFormed names
  separate : Separate names
  few : (names.length : Int) ≤ ceiling

/-- The fault of a declaration: the first check that fails, at the first name at which it fails. -/
inductive Refused (names : List String) (ceiling : Int) : Fault → Prop
  | empty (h : names = []) : Refused names ceiling .noVariables
  | flawed {before after : List String} {name : String} {f : Fault} (heq : names = before ++ name :: after)
      (hbefore : WellFormed before) (hf : Flaw before name f) : Refused names ceiling f
  | contained {before after left right : List String} {name other : String} (hnames : WellFormed names)
      (heq : names = before ++ name :: after) (hbefore : ∀ n ∈ before, ∀ o ∈ names, ¬Inside n o)
      (hother : names = left ++ other :: right) (hleft : ∀ o ∈ left, ¬Inside name o)
      (hinside : Inside name other) : Refused names ceiling (.containedVariable name other)
  | tooMany (hne : names ≠ []) (hnames : WellFormed names) (hseparate : Separate names)
      (h : ceiling < names.length) : Refused names ceiling (.tooManyVariables names.length ceiling)

variable {names before seen : List String} {name other : String} {ceiling : Int} {f : Fault}

/-! ## Names one by one -/

/-- A name with a flaw cannot stand behind these names. -/
theorem Flaw.not_wellFormed (hf : Flaw before name f) {rest : List String} :
    ¬WellFormed (before ++ name :: rest) := by
  intro h
  cases hf with
  | notWord hw => exact absurd (h.words name (by simp)) (by simp [hw])
  | again _ hmem => exact (List.nodup_append.1 h.nodup).2.2 name hmem name List.mem_cons_self rfl

theorem Flaw.unique {g : Fault} (hf : Flaw before name f) (hg : Flaw before name g) : f = g := by
  cases hf with
  | notWord h =>
    cases hg with
    | notWord _ => rfl
    | again hw _ => exact absurd (h.symm.trans hw) (by decide)
  | again hw _ =>
    cases hg with
    | notWord h => exact absurd (h.symm.trans hw) (by decide)
    | again _ _ => rfl

/-- A name behind well-formed ones has a flaw, or they stay well-formed with it. -/
theorem WellFormed.concat_or_flaw (h : WellFormed before) (name : String) :
    WellFormed (before ++ [name]) ∨ ∃ f, Flaw before name f := by
  cases hw : Text.isWord name with
  | false => exact .inr ⟨_, .notWord hw⟩
  | true =>
    by_cases hmem : name ∈ before
    · exact .inr ⟨_, .again hw hmem⟩
    · refine .inl ⟨fun n hn => ?_, ?_⟩
      · rcases List.mem_append.1 hn with hn | hn
        · exact h.words n hn
        · exact List.mem_singleton.1 hn ▸ hw
      · refine List.nodup_append.2 ⟨h.nodup, by simp, fun n hn m hm heq => ?_⟩
        obtain rfl := List.mem_singleton.1 hm
        exact hmem (heq ▸ hn)

theorem firstIllFormed_cons_of_flaw (hseen : ∀ n, n ∈ seen ↔ n ∈ before) (hf : Flaw before name f)
    (rest : List String) : firstIllFormed seen (name :: rest) = some f := by
  cases hf with
  | notWord hw => simp [firstIllFormed, hw]
  | again hw hmem => simp [firstIllFormed, hw, (hseen name).2 hmem]

theorem firstIllFormed_cons_of_concat (hseen : ∀ n, n ∈ seen ↔ n ∈ before)
    (h : WellFormed (before ++ [name])) (rest : List String) :
    firstIllFormed seen (name :: rest) = firstIllFormed (name :: seen) rest := by
  have hw : Text.isWord name = true := h.words name (by simp)
  have hnew : name ∉ seen := by
    intro hmem
    exact (List.nodup_append.1 h.nodup).2.2 name ((hseen name).1 hmem) name List.mem_cons_self rfl
  simp [firstIllFormed, hw, hnew]

theorem mem_cons_iff_mem_concat (hseen : ∀ n, n ∈ seen ↔ n ∈ before) (n : String) :
    n ∈ name :: seen ↔ n ∈ before ++ [name] := by
  simp [hseen, or_comm]

/-- The scan behind well-formed names finds no flaw exactly if the names stay well-formed. -/
theorem firstIllFormed_eq_none_iff (hseen : ∀ n, n ∈ seen ↔ n ∈ before) (h : WellFormed before) :
    firstIllFormed seen names = none ↔ WellFormed (before ++ names) := by
  induction names generalizing seen before with
  | nil => simpa [firstIllFormed] using h
  | cons name rest ih =>
    rcases h.concat_or_flaw name with hconcat | ⟨f, hf⟩
    · rw [firstIllFormed_cons_of_concat hseen hconcat, ih (mem_cons_iff_mem_concat hseen) hconcat,
        List.append_assoc, List.singleton_append]
    · rw [firstIllFormed_cons_of_flaw hseen hf]
      exact iff_of_false (by simp) hf.not_wellFormed

/-- The scan behind well-formed names finds the first name with a flaw. -/
theorem firstIllFormed_eq_some_iff (hseen : ∀ n, n ∈ seen ↔ n ∈ before) (h : WellFormed before) :
    firstIllFormed seen names = some f ↔ ∃ mid name after, names = mid ++ name :: after ∧
      WellFormed (before ++ mid) ∧ Flaw (before ++ mid) name f := by
  induction names generalizing seen before with
  | nil => simp [firstIllFormed]
  | cons name rest ih =>
    rcases h.concat_or_flaw name with hconcat | ⟨g, hg⟩
    · rw [firstIllFormed_cons_of_concat hseen hconcat, ih (mem_cons_iff_mem_concat hseen) hconcat]
      constructor
      · rintro ⟨mid, n, after, rfl, hmid, hf⟩
        rw [List.append_assoc] at hmid hf
        exact ⟨name :: mid, n, after, rfl, hmid, hf⟩
      · rintro ⟨mid, n, after, heq, hmid, hf⟩
        cases mid with
        | nil =>
          obtain ⟨rfl, rfl⟩ := List.cons.inj heq
          rw [List.append_nil] at hf
          exact absurd hconcat hf.not_wellFormed
        | cons m mid =>
          obtain ⟨rfl, rfl⟩ := List.cons.inj heq
          rw [List.append_cons] at hmid hf
          exact ⟨mid, n, after, rfl, hmid, hf⟩
    · rw [firstIllFormed_cons_of_flaw hseen hg, Option.some_inj]
      constructor
      · rintro rfl
        exact ⟨[], name, rest, rfl, by simpa using h, by simpa using hg⟩
      · rintro ⟨mid, n, after, heq, hmid, hf⟩
        cases mid with
        | nil =>
          obtain ⟨rfl, rfl⟩ := List.cons.inj heq
          rw [List.append_nil] at hf
          exact hg.unique hf
        | cons m mid =>
          obtain ⟨rfl, rfl⟩ := List.cons.inj heq
          exact absurd hmid hg.not_wellFormed

/-! ## Single letters inside other names -/

theorem containedIn_iff : containedIn name other = true ↔ Inside name other := by
  unfold containedIn Inside
  split
  next c hc => simp [hc, and_comm]
  next hnone =>
    refine iff_of_false (by decide) ?_
    rintro ⟨c, hc, _⟩
    exact hnone c hc

theorem firstContained_eq_none_iff : firstContained names = none ↔ Separate names := by
  simp [firstContained, Separate, containedIn_iff]

/-- The first single letter that is inside another name is found, with the first such name. -/
theorem firstContained_eq_some_iff : firstContained names = some f ↔
    ∃ before name after left other right, names = before ++ name :: after ∧
      (∀ n ∈ before, ∀ o ∈ names, ¬Inside n o) ∧ names = left ++ other :: right ∧
      (∀ o ∈ left, ¬Inside name o) ∧ Inside name other ∧ f = .containedVariable name other := by
  unfold firstContained
  rw [List.findSome?_eq_some_iff]
  constructor
  · rintro ⟨before, name, after, heq, hf, hbefore⟩
    obtain ⟨other, hother, rfl⟩ := Option.map_eq_some_iff.1 hf
    obtain ⟨hinside, left, right, hsplit, hleft⟩ := List.find?_eq_some_iff_append.1 hother
    refine ⟨before, name, after, left, other, right, heq, fun n hn o ho => ?_, hsplit, fun o ho => ?_,
      containedIn_iff.1 hinside, rfl⟩
    · rw [← containedIn_iff]
      exact List.find?_eq_none.1 (Option.map_eq_none_iff.1 (hbefore n hn)) o ho
    · rw [← containedIn_iff]
      simpa using hleft o ho
  · rintro ⟨before, name, after, left, other, right, heq, hbefore, hsplit, hleft, hinside, rfl⟩
    refine ⟨before, name, after, heq, Option.map_eq_some_iff.2 ⟨other, ?_, rfl⟩, fun n hn => ?_⟩
    · refine List.find?_eq_some_iff_append.2 ⟨containedIn_iff.2 hinside, left, right, hsplit, fun o ho => ?_⟩
      simpa [← containedIn_iff] using hleft o ho
    · refine Option.map_eq_none_iff.2 (List.find?_eq_none.2 fun o ho => ?_)
      rw [containedIn_iff]
      exact hbefore n hn o ho

/-! ## The whole check -/

theorem wellFormed_nil : WellFormed [] := ⟨by simp, .nil⟩

/-- A declaration is accepted exactly if it is as it must be. -/
theorem validate_eq_ok_iff_accepted {names' : List String} :
    validate names ceiling = .ok names' ↔ names' = names ∧ Accepted names ceiling := by
  rw [validate_eq_ok_iff, firstIllFormed_eq_none_iff (fun _ => Iff.rfl) wellFormed_nil, List.nil_append,
    firstContained_eq_none_iff]
  refine and_congr_right fun _ => ?_
  exact ⟨fun ⟨hne, hw, hs, hfew⟩ => ⟨hne, hw, hs, hfew⟩, fun ⟨hne, hw, hs, hfew⟩ => ⟨hne, hw, hs, hfew⟩⟩

/-- A declaration is refused exactly with its fault. -/
theorem validate_eq_error_iff {e : Failure} :
    validate names ceiling = .error e ↔ ∃ f, e = .fault f ∧ Refused names ceiling f := by
  have hflawed {f : Fault} : firstIllFormed [] names = some f ↔ ∃ before name after,
      names = before ++ name :: after ∧ WellFormed before ∧ Flaw before name f :=
    firstIllFormed_eq_some_iff (fun _ => Iff.rfl) wellFormed_nil
  have hformed : firstIllFormed [] names = none ↔ WellFormed names :=
    firstIllFormed_eq_none_iff (fun _ => Iff.rfl) wellFormed_nil
  unfold validate
  constructor
  · intro h
    split at h
    next hempty =>
      exact ⟨_, (Except.error.inj h).symm, .empty (by simpa using hempty)⟩
    next hne =>
      split at h
      next f hf =>
        obtain ⟨before, name, after, heq, hbefore, hf⟩ := hflawed.1 hf
        exact ⟨f, (Except.error.inj h).symm, .flawed heq hbefore hf⟩
      next hnone =>
        have hnames := hformed.1 hnone
        split at h
        next f hf =>
          obtain ⟨before, name, after, left, other, right, heq, hbefore, hother, hleft, hinside, rfl⟩ :=
            firstContained_eq_some_iff.1 hf
          exact ⟨_, (Except.error.inj h).symm, .contained hnames heq hbefore hother hleft hinside⟩
        next hsep =>
          split at h
          next hmany =>
            exact ⟨_, (Except.error.inj h).symm,
              .tooMany (by simpa using hne) hnames (firstContained_eq_none_iff.1 hsep) hmany⟩
          next => cases h
  · rintro ⟨f, rfl, hf⟩
    cases hf with
    | empty h => simp [h]
    | flawed heq hbefore hf =>
      rw [if_neg (by simp [heq]), hflawed.2 ⟨_, _, _, heq, hbefore, hf⟩]
    | contained hnames heq hbefore hother hleft hinside =>
      have hcontained := firstContained_eq_some_iff.2 ⟨_, _, _, _, _, _, heq, hbefore, hother, hleft, hinside, rfl⟩
      rw [if_neg (by simp [heq]), hformed.2 hnames, hcontained]
    | tooMany hne hnames hseparate h =>
      rw [if_neg (by simpa using hne), hformed.2 hnames, firstContained_eq_none_iff.2 hseparate]
      exact if_pos h

end Sentential.Variables
