import Mathlib.Data.List.Perm.Subperm
import Mathlib.Data.Nat.Find
import Mathlib.Logic.Relation
import Sentential.Proofs.Circuit.Queue

/-!
# Circuits without a loop

Where no gate that is reached feeds itself (`Acyclic`), the gates on a way from the output differ, so that no
way is longer than the list of gates (`Acyclic.not_reached`) and a sweep does not run out of fuel. It gives every
gate that is reached the length of the longest way to it, or it fails because one of them is missing
(`Swept.exists_missing`). The queue comes to an end with the same outcome (`Acyclic.visits_iff`).
`levels_longest` puts this together.
-/

namespace Sentential.Circuit

variable {c : Circuit} {ids : List String} {id : String} {fuel level n : Nat} {levels : List (String × Nat)}

/-- No gate that is reached feeds itself, directly or over other gates. -/
def Acyclic (c : Circuit) : Prop := ∀ n id, c.Reached n id → ¬Relation.TransGen c.Feeds id id

/-! ## The gates on a way -/

/-- The gates that a way goes over, the latest first: the end of the way feeds them all, directly or over other
gates, and each feeds those that the way came to before it. -/
theorem Reached.exists_trail (h : c.Reached n id) : ∃ trail : List String, trail.length = n ∧
    trail.Pairwise (Relation.TransGen c.Feeds) ∧
    ∀ i ∈ trail, Relation.TransGen c.Feeds id i ∧ (∃ g, c.lastGate i = .ok g) ∧ ∃ m, c.Reached m i := by
  induction h with
  | output => exact ⟨[], rfl, .nil, by simp⟩
  | @feeds n id id' hreached hfeeds ih =>
    obtain ⟨trail, hlength, hpairwise, htrail⟩ := ih
    refine ⟨id :: trail, by rw [List.length_cons, hlength], ?_, ?_⟩
    · exact List.pairwise_cons.2 ⟨fun i hi => (htrail i hi).1, hpairwise⟩
    · rw [List.forall_mem_cons]
      have hgate : ∃ g, c.lastGate id = .ok g := hfeeds.imp fun _ h => h.1
      refine ⟨⟨.single hfeeds, hgate, n, hreached⟩, fun i hi => ?_⟩
      obtain ⟨hfeeds', hgate, hreached'⟩ := htrail i hi
      exact ⟨.head hfeeds hfeeds', hgate, hreached'⟩

/-- Without a loop no way is longer than the list of gates. -/
theorem Acyclic.not_reached (hc : c.Acyclic) (id : String) : ¬c.Reached (c.gates.length + 1) id := by
  intro h
  obtain ⟨trail, hlength, hpairwise, htrail⟩ := h.exists_trail
  have hnodup : trail.Nodup := by
    refine hpairwise.imp_of_mem fun {i j} hi _ hfeeds heq => ?_
    obtain ⟨_, _, m, hm⟩ := htrail i hi
    exact hc m i hm (heq ▸ hfeeds)
  have hsub : trail ⊆ c.gates.map (·.id) := by
    intro i hi
    obtain ⟨g, hg, hid⟩ := exists_lastGate_iff.1 (htrail i hi).2.1
    exact List.mem_map.2 ⟨g, hg, hid⟩
  have hle := (hnodup.subperm hsub).length_le
  rw [hlength, List.length_map] at hle
  omega

/-- There is no loop where every reference from a gate that is reached leads to a gate with a larger number. -/
theorem Acyclic.of_rank (rank : String → Nat)
    (h : ∀ n id id', c.Reached n id → c.Feeds id' id → rank id < rank id') : c.Acyclic := by
  intro n id hreached hloop
  suffices hlarger : ∀ i, Relation.TransGen c.Feeds i id → (∃ m, c.Reached m i) ∧ rank id < rank i from
    absurd (hlarger id hloop).2 (Nat.lt_irrefl _)
  intro i hi
  induction hi using Relation.TransGen.head_induction_on with
  | single hfeeds => exact ⟨⟨n + 1, .feeds hreached hfeeds⟩, h n id _ hreached hfeeds⟩
  | head hfeeds _ ih =>
    obtain ⟨⟨m, hm⟩, hlt⟩ := ih
    exact ⟨⟨m + 1, .feeds hm hfeeds⟩, Nat.lt_trans hlt (h m _ _ hm hfeeds)⟩

/-- Without a loop a gate that is reached has a longest way to it. -/
theorem Acyclic.exists_longest (hc : c.Acyclic) (h : c.Reached n id) :
    ∃ m, c.Reached m id ∧ ∀ k, c.Reached k id → k ≤ m := by
  classical
  have hbound : ∀ k, c.Reached k id → k ≤ c.gates.length := by
    intro k hk
    by_contra hlt
    obtain ⟨i, hi⟩ := hk.exists_of_le (Nat.lt_of_not_le hlt)
    exact hc.not_reached i hi
  refine ⟨Nat.findGreatest (c.Reached · id) c.gates.length, ?_, fun k hk => ?_⟩
  · exact Nat.findGreatest_spec (P := (c.Reached · id)) (hbound n h) h
  · exact Nat.le_findGreatest (hbound k hk) hk

/-! ## A missing gate -/

/-- A sweep that meets a missing gate fails, and with the name of a missing gate that is reached. -/
theorem Swept.exists_missing (h : Swept c level ids levels) (hshort : ∀ i, ¬c.Reached (level + fuel) i)
    (hle : level ≤ n) (hreached : c.Reached n id) (hmissing : ∀ g ∈ c.gates, g.id ≠ id) :
    ∃ id', c.sweep fuel level ids levels = .error (.unknownGate id') ∧
      (∃ m, c.Reached m id') ∧ ∀ g ∈ c.gates, g.id ≠ id' := by
  induction fuel generalizing level ids levels with
  | zero =>
    obtain ⟨i, hi⟩ := hreached.exists_of_le hle
    exact absurd hi (hshort i)
  | succ fuel ih =>
    obtain ⟨i, hi⟩ := hreached.exists_of_le hle
    obtain ⟨j, ids, rfl⟩ := List.exists_cons_of_ne_nil (List.ne_nil_of_mem ((h.mem_iff i).2 hi))
    rw [sweep_cons]
    cases hnext : c.feedersOf (j :: ids) with
    | error e =>
      obtain ⟨i', hi', hlast⟩ := Outcome.exists_of_mapM_eq_error (feedersOf_eq_error_iff.1 hnext)
      obtain ⟨rfl, hmissing'⟩ := lastGate_eq_error_iff.1 hlast
      exact ⟨i', rfl, ⟨level, (h.mem_iff i').1 hi'⟩, hmissing'⟩
    | ok next =>
      -- The gates of this level all exist, so the missing one is further away.
      have hne : level ≠ n := by
        rintro rfl
        obtain ⟨gates, hgates, _⟩ := feedersOf_eq_ok_iff.1 hnext
        obtain ⟨g, _, hg⟩ := Outcome.exists_mem_of_mapM hgates ((h.mem_iff id).2 hreached)
        obtain ⟨g', hg', hid⟩ := exists_lastGate_iff.1 ⟨g, hg⟩
        exact hmissing g' hg' hid
      have hlt : level + 1 ≤ n := Nat.lt_of_le_of_ne hle hne
      have hplace : level + 1 + fuel = level + (fuel + 1) := by omega
      exact ih (h.advance hnext) (hplace ▸ hshort) hlt

/-! ## Levels -/

/-- Every circuit without a loop has levels or misses a gate that is reached. -/
theorem Acyclic.levels_cases (hc : c.Acyclic) :
    (∃ id, c.levels = .error (.unknownGate id) ∧ (∃ n, c.Reached n id) ∧ ∀ g ∈ c.gates, g.id ≠ id) ∨
      (∀ n id, c.Reached n id → ∃ g ∈ c.gates, g.id = id) ∧ ∃ ls, c.levels = .ok ls := by
  by_cases hgates : ∀ n id, c.Reached n id → ∃ g ∈ c.gates, g.id = id
  · right
    obtain ⟨ls, hls, _⟩ := exists_levels (fun n id h => exists_lastGate_iff.2 (hgates n id h)) hc.not_reached
    exact ⟨hgates, ls, hls⟩
  · left
    push Not at hgates
    obtain ⟨n, id, hreached, hmissing⟩ := hgates
    exact (Swept.start c).exists_missing (by simpa using hc.not_reached) (Nat.zero_le n) hreached hmissing

/-- The queue comes to an end, and the levels are the one outcome. -/
theorem Acyclic.visits_iff (hc : c.Acyclic) {o : Outcome (List (String × Nat))} :
    Visits c (c.output.gate?.toList.map (·, 0)) [] o ↔ c.levels = o := by
  have hcyclic : c.levels ≠ .error .cyclic := by
    rcases hc.levels_cases with ⟨id, h, _⟩ | ⟨_, ls, h⟩ <;> simp [h]
  have hrun := visits_levels hcyclic
  exact ⟨hrun.unique, fun h => h ▸ hrun⟩

/-- A missing gate is reported exactly if one is reached. -/
theorem Acyclic.exists_levels_eq_unknownGate_iff (hc : c.Acyclic) :
    (∃ id, c.levels = .error (.unknownGate id)) ↔ ∃ n id, c.Reached n id ∧ ∀ g ∈ c.gates, g.id ≠ id := by
  rcases hc.levels_cases with ⟨id, h, ⟨n, hreached⟩, hmissing⟩ | ⟨hgates, ls, h⟩
  · exact ⟨fun _ => ⟨n, id, hreached, hmissing⟩, fun _ => ⟨id, h⟩⟩
  · constructor
    · rintro ⟨id, hid⟩
      cases h.symm.trans hid
    · rintro ⟨n, id, hreached, hmissing⟩
      obtain ⟨g, hg, hid⟩ := hgates n id hreached
      exact absurd hid (hmissing g hg)

/-- The keys of the levels are the gates that are reached. -/
theorem Leveled.mem_keys_iff (hc : c.Acyclic) (h : Leveled c levels) :
    id ∈ levels.map Prod.fst ↔ ∃ n, c.Reached n id := by
  rw [Record.mem_keys_iff]
  constructor
  · rintro ⟨n, hn⟩
    exact ⟨n, ((h.lookup_iff id n).1 hn).1⟩
  · rintro ⟨n, hn⟩
    obtain ⟨m, hm⟩ := hc.exists_longest hn
    exact ⟨m, (h.lookup_iff id m).2 hm⟩

/-- Taken gate by gate from a queue, a circuit without a loop comes to an end, and its levels are the one outcome.
A missing gate is reported exactly if one is reached. Otherwise the levels are those of the gates that are
reached, and each is the length of the longest way from the output. -/
theorem levels_longest (c : Circuit) (hc : c.Acyclic) :
    (∀ o, Visits c (c.output.gate?.toList.map (·, 0)) [] o ↔ c.levels = o) ∧
    ((∃ id, c.levels = .error (.unknownGate id)) ↔ ∃ n id, c.Reached n id ∧ ∀ g ∈ c.gates, g.id ≠ id) ∧
    ((∀ n id, c.Reached n id → ∃ g ∈ c.gates, g.id = id) → ∃ ls, c.levels = .ok ls ∧ (ls.map Prod.fst).Nodup ∧
      (∀ id, id ∈ ls.map Prod.fst ↔ ∃ n, c.Reached n id) ∧
      ∀ id n, ls.lookup id = some n ↔ c.Reached n id ∧ ∀ m, c.Reached m id → m ≤ n) := by
  refine ⟨fun o => hc.visits_iff, hc.exists_levels_eq_unknownGate_iff, fun hgates => ?_⟩
  obtain ⟨ls, hlevels, h⟩ := exists_levels (fun n id hn => exists_lastGate_iff.2 (hgates n id hn)) hc.not_reached
  exact ⟨ls, hlevels, h.nodup, fun id => h.mem_keys_iff hc, h.lookup_iff⟩

/-- The gate `c` is referred to from two depths, `z` is not reached and feeds itself, and the first of the gates
with the name `b`, which feeds itself too, does not count. -/
def shared : Circuit where
  gates := [
    ⟨"b", .not, [.gate "b"]⟩,
    ⟨"a", .and, [.gate "c", .gate "b"]⟩,
    ⟨"b", .or, [.gate "c", .gate "c"]⟩,
    ⟨"c", .not, [.input "p"]⟩,
    ⟨"z", .not, [.gate "z"]⟩]
  connections := []
  output := .gate "a"
  counts := []

theorem shared_feeds {id id' : String} (hmem : id = "a" ∨ id = "b" ∨ id = "c") (h : shared.Feeds id' id) :
    id = "a" ∧ (id' = "c" ∨ id' = "b") ∨ id = "b" ∧ id' = "c" := by
  obtain ⟨g, hg, hfeeds⟩ := h
  rcases hmem with rfl | rfl | rfl <;> cases hg <;> simp_all [Gate.feeders, Ref.gate?]

theorem shared_reached {n : Nat} {id : String} (h : shared.Reached n id) : id = "a" ∨ id = "b" ∨ id = "c" := by
  induction h with
  | output h => exact .inl (Ref.gate.inj h).symm
  | feeds _ hfeeds ih => rcases shared_feeds ih hfeeds with ⟨_, rfl | rfl⟩ | ⟨_, rfl⟩ <;> decide

theorem shared_acyclic : shared.Acyclic := by
  refine .of_rank (fun id => if id = "a" then 0 else if id = "b" then 1 else 2) ?_
  intro n id id' hreached hfeeds
  rcases shared_feeds (shared_reached hreached) hfeeds with ⟨rfl, rfl | rfl⟩ | ⟨rfl, rfl⟩ <;> decide

/-- The queue gives the shared gate the deeper of its levels, and no way to it is longer. -/
theorem levels_longest_shared : shared.Acyclic ∧
    Visits shared [("a", 0)] [] (.ok [("a", 0), ("c", 2), ("b", 1)]) ∧
    shared.Reached 2 "c" ∧ ∀ n, shared.Reached n "c" → n ≤ 2 := by
  have hlevels : shared.levels = .ok [("a", 0), ("c", 2), ("b", 1)] := by rfl
  obtain ⟨hrun, _, hlongest⟩ := levels_longest shared shared_acyclic
  have hgates : ∀ n id, shared.Reached n id → ∃ g ∈ shared.gates, g.id = id := by
    intro n id h
    rcases shared_reached h with rfl | rfl | rfl <;> simp [shared]
  obtain ⟨ls, hls, _, _, hlookup⟩ := hlongest hgates
  cases hlevels.symm.trans hls
  exact ⟨shared_acyclic, (hrun _).2 hlevels, (hlookup "c" 2).1 rfl⟩

end Sentential.Circuit
