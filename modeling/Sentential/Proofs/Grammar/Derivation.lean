import Sentential.Proofs.Grammar.Level

/-!
# Facts about derivations

The variables of a derived formula are the name tokens in their order (`Derives.leaves_eq`), by induction
over the derivation. So a variable occurs exactly if a name token has it (`Derives.mem_leaves_iff`).
-/

namespace Sentential.Grammar

variable {l : Level} {ts : List Token} {f : Formula}

/-- The values of the name tokens. -/
def names (ts : List Token) : List String := (ts.filter (·.kind = .name)).map (·.value)

@[simp] theorem names_append (ts us : List Token) : names (ts ++ us) = names ts ++ names us := by
  simp [names]

theorem names_cons_of_ne {t : Token} (ht : t.kind ≠ .name) (ts : List Token) :
    names (t :: ts) = names ts := by
  simp [names, ht]

theorem IsOperator.ne_name {op : Operator} {t : Token} (h : IsOperator op t) : t.kind ≠ .name := by
  rw [h.1]
  decide

/-- The variables of a derived formula are the name tokens in their order. -/
theorem Derives.leaves_eq (h : Derives l ts f) : f.leaves = names ts := by
  induction h using Derives.byLevels with
  | binary _ ht _ ihl ihr => simp [Formula.leaves, ihl, ihr, names_cons_of_ne ht.ne_name]
  | loosen _ _ ih => exact ih
  | not ht _ ih => simp [Formula.leaves, ih, names_cons_of_ne ht.ne_name]
  | name ht => simp [Formula.leaves, names, ht]
  | group ho _ hc ih => simp [names, ih, ho, hc]

/-- The variables of a derived formula are the values of its name tokens. -/
theorem Derives.mem_leaves_iff (h : Derives l ts f) {name : String} :
    name ∈ f.leaves ↔ ∃ t ∈ ts, t.kind = .name ∧ t.value = name := by
  rw [h.leaves_eq]
  simp [names, and_assoc]

end Sentential.Grammar
