import Sentential.Proofs.Variables.Refusal

/-!
# Declarations in another order

What a declaration must be like speaks of its names and not of their places, so a declaration stays accepted when its
names are put in another order (`Accepted.perm`). Which fault is reported of a declaration that is refused does depend
on the order: the first check that fails decides, at the first name at which it fails (`validation_exact`).
-/

namespace Sentential.Variables

variable {names names' : List String} {ceiling : Int}

theorem WellFormed.perm (h : WellFormed names) (hp : names.Perm names') : WellFormed names' where
  words name hn := h.words name (hp.mem_iff.2 hn)
  nodup := hp.nodup_iff.1 h.nodup

/-- Whether a letter is inside another name is asked of every pair, so in any order. -/
theorem Separate.perm (h : Separate names) (hp : names.Perm names') : Separate names' :=
  fun name hn other ho => h name (hp.mem_iff.2 hn) other (hp.mem_iff.2 ho)

/-- An accepted declaration is accepted in any order. -/
theorem Accepted.perm (h : Accepted names ceiling) (hp : names.Perm names') : Accepted names' ceiling where
  ne_nil := by
    intro hnil
    rw [hnil] at hp
    exact h.ne_nil hp.eq_nil
  wellFormed := h.wellFormed.perm hp
  separate := h.separate.perm hp
  few := by
    rw [← hp.length_eq]
    exact h.few

theorem accepted_iff_of_perm (hp : names.Perm names') : Accepted names ceiling ↔ Accepted names' ceiling :=
  ⟨fun h => h.perm hp, fun h => h.perm hp.symm⟩

/-- A declaration is accepted, as it is, exactly if it has names, these are words, each declared once, no single letter
among them occurs in another name, and there are no more names than the ceiling allows. It is then accepted in any other
order. Otherwise it is refused with the fault of the first check that fails, at the first name at which it fails. -/
theorem validation_exact (names : List String) (ceiling : Int) :
    (∀ names', validate names ceiling = .ok names' ↔ names' = names ∧ Accepted names ceiling) ∧
    (∀ names', names.Perm names' → (validate names' ceiling = .ok names' ↔ validate names ceiling = .ok names)) ∧
    ∀ e, validate names ceiling = .error e ↔ ∃ f, e = .fault f ∧ Refused names ceiling f := by
  refine ⟨fun names' => validate_eq_ok_iff_accepted, fun names' hp => ?_, fun e => validate_eq_error_iff⟩
  have hself : ∀ {ns : List String}, validate ns ceiling = .ok ns ↔ Accepted ns ceiling := by
    intro ns
    rw [validate_eq_ok_iff_accepted]
    exact and_iff_right rfl
  rw [hself, hself]
  exact (accepted_iff_of_perm hp).symm

/-- Three names are accepted in two orders. Of five names of which one is repeated, one is no word, a letter is inside
another name and which are too many, the repeated one is reported, since it comes before the one that is no word. -/
theorem validation_exact_orders :
    (["pq", "r", "s"].Perm ["s", "pq", "r"] ∧ validate ["s", "pq", "r"] 3 = .ok ["s", "pq", "r"]) ∧
      validate ["pq", "p", "p", "1", "q"] 2 = .error (.fault (.repeatedVariable "p")) := by
  have hperm : ["pq", "r", "s"].Perm ["s", "pq", "r"] := by decide
  have hnames : (validate ["pq", "r", "s"] 3).toOption = some ["pq", "r", "s"] := by decide +kernel
  have hwords : Text.isWord "pq" = true ∧ Text.isWord "p" = true := by decide +kernel
  have hbefore : WellFormed ["pq", "p"] := ⟨by simpa using hwords, by decide⟩
  have hagain : Flaw ["pq", "p"] "p" (.repeatedVariable "p") := .again hwords.2 (by decide)
  exact ⟨⟨hperm, ((validation_exact ["pq", "r", "s"] 3).2.1 _ hperm).2 (Outcome.toOption_eq_some_iff.1 hnames)⟩,
    ((validation_exact ["pq", "p", "p", "1", "q"] 2).2.2 _).2 ⟨_, rfl, .flawed rfl hbefore hagain⟩⟩

end Sentential.Variables
