import Sentential.Formula.Evaluation

/-!
# Valuations and assignments

A formula holds or fails under a valuation of all names. The value depends on the variables of
the formula only (`holds_congr`), and evaluation under an assignment that binds them gives the
value under any valuation that agrees with the assignment (`evaluate_eq_holds`).
-/

namespace Sentential

/-- The valuation that agrees with the assignment and is false elsewhere. -/
def Assignment.valuation (a : Assignment) : String → Bool := fun name => (a.lookup name).getD false

/-- The assignment has a value for every variable of the formula. -/
def Assignment.Binds (a : Assignment) (f : Formula) : Prop :=
  ∀ name ∈ f.atoms, (a.lookup name).isSome = true

theorem Assignment.extends_valuation (a : Assignment) : Assignment.Extends a.valuation a := by
  intro name b h
  simp [valuation, h]

namespace Formula

theorem mem_atoms {f : Formula} {name : String} : name ∈ f.atoms ↔ name ∈ f.leaves := by
  simp [atoms]

/-- The value depends on the variables of the formula only. -/
theorem holds_congr {f : Formula} {v w : String → Bool} (h : ∀ name ∈ f.atoms, v name = w name) :
    f.holds v = f.holds w := by
  simp only [mem_atoms] at h
  induction f with
  | var name => exact h name (by simp [leaves])
  | not a ih => simp [holds, ih h]
  | binary op l r ihl ihr =>
    have hl := ihl fun name hn => h name (by simp [leaves, hn])
    have hr := ihr fun name hn => h name (by simp [leaves, hn])
    simp [holds, hl, hr]

/-- Evaluation gives a value or reports a variable of the formula that has none. -/
theorem evaluate_cases (a : Assignment) (f : Formula) : (∃ b, f.evaluate a = .ok b) ∨
    ∃ name ∈ f.atoms, a.lookup name = none ∧ f.evaluate a = .error (.fault (.unbound name)) := by
  simp only [mem_atoms]
  induction f with
  | var name =>
    unfold evaluate
    cases h : a.lookup name with
    | some b => exact .inl ⟨b, rfl⟩
    | none => exact .inr ⟨name, by simp [leaves], h, rfl⟩
  | not f ih =>
    unfold evaluate
    rcases ih with ⟨b, hb⟩ | ⟨name, hn, hnone, hunbound⟩
    · exact .inl ⟨!b, by rw [hb]; rfl⟩
    · exact .inr ⟨name, hn, hnone, by rw [hunbound]; rfl⟩
  | binary op l r ihl ihr =>
    unfold evaluate
    rcases ihl with ⟨x, hx⟩ | ⟨name, hn, hnone, hunbound⟩
    · rcases ihr with ⟨y, hy⟩ | ⟨name, hn, hnone, hunbound⟩
      · exact .inl ⟨op.apply x y, by rw [hx, hy]; rfl⟩
      · exact .inr ⟨name, by simp [leaves, hn], hnone, by rw [hx, hunbound]; rfl⟩
    · exact .inr ⟨name, by simp [leaves, hn], hnone, by rw [hunbound]; rfl⟩

end Formula

namespace Assignment.Binds

variable {a : Assignment} {f l r : Formula} {op : Connective}

theorem not_iff : a.Binds (.not f) ↔ a.Binds f := by
  simp [Binds, Formula.mem_atoms, Formula.leaves]

theorem binary_iff : a.Binds (.binary op l r) ↔ a.Binds l ∧ a.Binds r := by
  simp only [Binds, Formula.mem_atoms, Formula.leaves, List.mem_append]
  exact ⟨fun h => ⟨fun n hn => h n (.inl hn), fun n hn => h n (.inr hn)⟩,
    fun h n hn => hn.elim (h.1 n) (h.2 n)⟩

/-- The value of a variable that is bound. -/
theorem lookup_var {name : String} {v : String → Bool} (h : a.Binds (.var name))
    (hv : Assignment.Extends v a) : a.lookup name = some (v name) := by
  obtain ⟨b, hb⟩ := Option.isSome_iff_exists.1 (h name (by simp [Formula.mem_atoms, Formula.leaves]))
  rw [hb, hv name b hb]

end Assignment.Binds

/-- Evaluation gives the value under every valuation that agrees with the assignment. -/
theorem Formula.evaluate_eq_holds {a : Assignment} {v : String → Bool} {f : Formula}
    (hv : Assignment.Extends v a) (hb : a.Binds f) : f.evaluate a = .ok (f.holds v) := by
  induction f with
  | var name => simp [evaluate, holds, hb.lookup_var hv]
  | not f ih =>
    rw [evaluate, ih (Assignment.Binds.not_iff.1 hb)]
    rfl
  | binary op l r ihl ihr =>
    obtain ⟨hl, hr⟩ := Assignment.Binds.binary_iff.1 hb
    rw [evaluate, ihl hl, ihr hr]
    rfl

end Sentential
