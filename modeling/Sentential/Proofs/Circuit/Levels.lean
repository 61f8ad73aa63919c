import Mathlib.Data.List.Nodup
import Sentential.Circuit.Levels
import Sentential.Proofs.Outcome

/-!
# What a sweep finds

`Reached` counts the references on a way from the output to a gate. One level of a sweep goes from the
gates at some count to those one reference further (`Swept.advance`). Where a sweep ends, it has seen every
way, and the level that it gave to a gate last is the length of the longest one (`Swept.leveled`). It ends
if every gate that is reached exists and no way is as long as its fuel (`Swept.exists_sweep`).
-/

namespace Sentential.Circuit

variable {c : Circuit} {ids next : List String} {id id' : String} {n m fuel level : Nat}
  {levels ls : List (String × Nat)}

/-- The gate with the name `id'` feeds the gate with the name `id`. -/
def Feeds (c : Circuit) (id' id : String) : Prop := ∃ g, c.lastGate id = .ok g ∧ id' ∈ g.feeders

/-- A way of `n` references leads from the output to the gate. -/
inductive Reached (c : Circuit) : Nat → String → Prop
  | output {id : String} (h : c.output = .gate id) : Reached c 0 id
  | feeds {n : Nat} {id id' : String} (h : Reached c n id) (hf : c.Feeds id' id) : Reached c (n + 1) id'

theorem Reached.output_eq (h : c.Reached 0 id) : c.output = .gate id := by
  cases h with
  | output h => exact h

theorem Reached.exists_feeds (h : c.Reached (n + 1) id') : ∃ id, c.Reached n id ∧ c.Feeds id' id := by
  cases h with
  | feeds h hf => exact ⟨_, h, hf⟩

/-- Longer ways go over shorter ones. -/
theorem Reached.exists_of_le (h : c.Reached n id) (hm : m ≤ n) : ∃ id', c.Reached m id' := by
  induction n generalizing id with
  | zero =>
    obtain rfl : m = 0 := Nat.le_zero.1 hm
    exact ⟨id, h⟩
  | succ n ih =>
    rcases Nat.lt_or_eq_of_le hm with hlt | rfl
    · obtain ⟨id', h', _⟩ := h.exists_feeds
      exact ih h' (Nat.le_of_lt_succ hlt)
    · exact ⟨id, h⟩

/-! ## Look-ups -/

/-- What is found under a name is a gate with this name. -/
theorem mem_of_lastGate {g : Gate} (h : c.lastGate id = .ok g) : g ∈ c.gates ∧ g.id = id := by
  unfold lastGate at h
  split at h
  next hfind =>
    cases h
    have hid := List.find?_some hfind
    exact ⟨List.mem_reverse.1 (List.mem_of_find?_eq_some hfind), eq_of_beq hid⟩
  next => cases h

/-- A look-up fails exactly on a missing gate, and it names it. -/
theorem lastGate_eq_error_iff {e : Failure} :
    c.lastGate id = .error e ↔ e = .unknownGate id ∧ ∀ g ∈ c.gates, g.id ≠ id := by
  cases hfind : c.gates.reverse.find? (·.id == id) with
  | none =>
    have hnone : ∀ g ∈ c.gates, g.id ≠ id := by simpa using hfind
    rw [lastGate, hfind]
    exact ⟨fun h => ⟨(Except.error.inj h).symm, hnone⟩, fun h => congrArg Except.error h.1.symm⟩
  | some g =>
    have hlast : c.lastGate id = .ok g := by rw [lastGate, hfind]
    obtain ⟨hg, hid⟩ := mem_of_lastGate hlast
    rw [hlast]
    refine ⟨fun h => ?_, fun h => absurd hid (h.2 g hg)⟩
    cases h

/-- A look-up gives a gate exactly if one has the name. -/
theorem exists_lastGate_iff : (∃ g, c.lastGate id = .ok g) ↔ ∃ g ∈ c.gates, g.id = id := by
  constructor
  · rintro ⟨g, h⟩
    exact ⟨g, mem_of_lastGate h⟩
  · rintro ⟨g, hg, hid⟩
    cases hlast : c.lastGate id with
    | ok g' => exact ⟨g', rfl⟩
    | error e => exact absurd hid ((lastGate_eq_error_iff.1 hlast).2 g hg)

/-- What feeds the named gates is found exactly if all of them exist. -/
theorem feedersOf_eq_ok_iff : c.feedersOf ids = .ok next ↔
    ∃ gates, ids.mapM c.lastGate = .ok gates ∧ next = (gates.flatMap Gate.feeders).eraseDups := by
  unfold feedersOf
  rw [Outcome.bind_eq_ok_iff]
  exact exists_congr fun gates => and_congr_right fun _ => ⟨fun h => (Except.ok.inj h).symm, fun h => h ▸ rfl⟩

theorem feedersOf_eq_error_iff {e : Failure} : c.feedersOf ids = .error e ↔ ids.mapM c.lastGate = .error e := by
  unfold feedersOf
  rw [Outcome.bind_eq_error_iff]
  constructor
  · rintro (h | ⟨gates, _, h⟩)
    · exact h
    · cases h
  · exact .inl

theorem mem_feedersOf_iff (h : c.feedersOf ids = .ok next) : id' ∈ next ↔ ∃ id ∈ ids, c.Feeds id' id := by
  obtain ⟨gates, hgates, rfl⟩ := feedersOf_eq_ok_iff.1 h
  rw [List.mem_eraseDups, List.mem_flatMap]
  constructor
  · rintro ⟨g, hg, hfeeds⟩
    obtain ⟨id, hid, hlast⟩ := Outcome.exists_of_mem_mapM hgates hg
    exact ⟨id, hid, g, hlast, hfeeds⟩
  · rintro ⟨id, hid, g, hlast, hfeeds⟩
    obtain ⟨g', hg', hlast'⟩ := Outcome.exists_mem_of_mapM hgates hid
    cases hlast.symm.trans hlast'
    exact ⟨g, hg', hfeeds⟩

theorem exists_feedersOf (h : ∀ id ∈ ids, ∃ g, c.lastGate id = .ok g) : ∃ next, c.feedersOf ids = .ok next := by
  obtain ⟨gates, hgates⟩ := Outcome.exists_mapM_eq_ok h
  exact ⟨_, feedersOf_eq_ok_iff.2 ⟨gates, hgates, rfl⟩⟩

/-! ## Entries of one level -/

/-- The levels with the named gates moved to `level`. -/
def moved (levels : List (String × Nat)) (ids : List String) (level : Nat) : List (String × Nat) :=
  ids.foldl (fun r id => Record.put r id level) levels

theorem lookup_moved : (moved levels ids level).lookup id = if id ∈ ids then some level else levels.lookup id := by
  unfold moved
  induction ids generalizing levels with
  | nil => rfl
  | cons i ids ih =>
    rw [List.foldl_cons, ih, Record.lookup_put]
    by_cases hid : id ∈ ids
    · simp [hid]
    · by_cases hi : id = i
      · simp [hi]
      · simp [hid, hi]

theorem nodup_keys_moved (h : (levels.map Prod.fst).Nodup) : ((moved levels ids level).map Prod.fst).Nodup := by
  unfold moved
  induction ids generalizing levels with
  | nil => exact h
  | cons i ids ih => exact ih (Record.nodup_keys_put i level h)

/-! ## Sweeps -/

/-- The state of a sweep in front of a level: the gates at as many references, and for every gate the
longest way to it that is shorter. -/
structure Swept (c : Circuit) (level : Nat) (ids : List String) (levels : List (String × Nat)) : Prop where
  mem_iff : ∀ id, id ∈ ids ↔ c.Reached level id
  lookup_iff : ∀ id m, levels.lookup id = some m ↔
    m < level ∧ c.Reached m id ∧ ∀ k < level, c.Reached k id → k ≤ m
  nodup : (levels.map Prod.fst).Nodup

/-- Every gate that is reached has an entry, and it is the length of the longest way to it. -/
structure Leveled (c : Circuit) (levels : List (String × Nat)) : Prop where
  lookup_iff : ∀ id m, levels.lookup id = some m ↔ c.Reached m id ∧ ∀ k, c.Reached k id → k ≤ m
  nodup : (levels.map Prod.fst).Nodup

/-- A sweep starts at the gate of the output. -/
theorem Swept.start (c : Circuit) : Swept c 0 c.output.gate?.toList [] where
  mem_iff id := by
    rw [Option.mem_toList]
    constructor
    · intro h
      refine .output ?_
      cases hout : c.output with
      | gate id' =>
        rw [hout] at h
        exact congrArg Ref.gate (Option.some.inj h)
      | input name =>
        rw [hout] at h
        cases h
    · intro h
      rw [h.output_eq]
      rfl
  lookup_iff id m := by simp
  nodup := List.nodup_nil

/-- One level of a sweep. -/
theorem Swept.advance (h : Swept c level ids levels) (hnext : c.feedersOf ids = .ok next) :
    Swept c (level + 1) next (moved levels ids level) where
  mem_iff id' := by
    rw [mem_feedersOf_iff hnext]
    constructor
    · rintro ⟨id, hid, hfeeds⟩
      exact .feeds ((h.mem_iff id).1 hid) hfeeds
    · intro hreached
      obtain ⟨id, hid, hfeeds⟩ := hreached.exists_feeds
      exact ⟨id, (h.mem_iff id).2 hid, hfeeds⟩
  lookup_iff id m := by
    rw [lookup_moved]
    split
    next hmem =>
      have hreached := (h.mem_iff id).1 hmem
      rw [Option.some_inj]
      constructor
      · rintro rfl
        exact ⟨Nat.lt_succ_self _, hreached, fun k hk _ => Nat.le_of_lt_succ hk⟩
      · rintro ⟨hm, _, hmax⟩
        have hle := hmax level (Nat.lt_succ_self _) hreached
        omega
    next hnot =>
      rw [h.lookup_iff]
      -- A way of this length does not exist, so the bound may be one more.
      have hne : ∀ k, c.Reached k id → k ≠ level := fun k hk heq => hnot ((h.mem_iff id).2 (heq ▸ hk))
      constructor
      · rintro ⟨hm, hreached, hmax⟩
        refine ⟨by omega, hreached, fun k hk hk' => hmax k ?_ hk'⟩
        have := hne k hk'
        omega
      · rintro ⟨hm, hreached, hmax⟩
        have := hne m hreached
        exact ⟨by omega, hreached, fun k hk hk' => hmax k (by omega) hk'⟩
  nodup := nodup_keys_moved h.nodup

/-- Where no gate is left, no way is longer than those that were seen. -/
theorem Swept.leveled_of_nil (h : Swept c level [] levels) : Leveled c levels where
  lookup_iff id m := by
    have hshorter : ∀ {k i}, c.Reached k i → k < level := by
      intro k i hk
      by_contra hle
      obtain ⟨i', hi'⟩ := hk.exists_of_le (Nat.le_of_not_lt hle)
      exact List.not_mem_nil ((h.mem_iff i').2 hi')
    rw [h.lookup_iff]
    constructor
    · rintro ⟨_, hreached, hmax⟩
      exact ⟨hreached, fun k hk => hmax k (hshorter hk) hk⟩
    · rintro ⟨hreached, hmax⟩
      exact ⟨hshorter hreached, hreached, fun k _ hk => hmax k hk⟩
  nodup := h.nodup

/-- A sweep that ends has found the longest ways. -/
theorem Swept.leveled (h : Swept c level ids levels) (hs : c.sweep fuel level ids levels = .ok ls) :
    Leveled c ls := by
  induction fuel generalizing level ids levels with
  | zero =>
    cases ids with
    | nil =>
      cases hs
      exact h.leveled_of_nil
    | cons id ids => cases hs
  | succ fuel ih =>
    cases ids with
    | nil =>
      cases hs
      exact h.leveled_of_nil
    | cons id ids =>
      obtain ⟨next, hnext, hs⟩ := Outcome.bind_eq_ok_iff.1 hs
      exact ih (h.advance hnext) hs

/-- A sweep ends if the gates that it meets exist and no way is as long as its fuel. -/
theorem Swept.exists_sweep (h : Swept c level ids levels) (hgates : ∀ n id, c.Reached n id → ∃ g, c.lastGate id = .ok g)
    (hshort : ∀ id, ¬c.Reached (level + fuel) id) : ∃ ls, c.sweep fuel level ids levels = .ok ls := by
  induction fuel generalizing level ids levels with
  | zero =>
    cases ids with
    | nil => exact ⟨levels, rfl⟩
    | cons id ids => exact absurd ((h.mem_iff id).1 List.mem_cons_self) (hshort id)
  | succ fuel ih =>
    cases ids with
    | nil => exact ⟨levels, rfl⟩
    | cons id ids =>
      obtain ⟨next, hnext⟩ := exists_feedersOf fun i hi => hgates level i ((h.mem_iff i).1 hi)
      have hplace : level + 1 + fuel = level + (fuel + 1) := by omega
      obtain ⟨ls, hls⟩ := ih (h.advance hnext) (hplace ▸ hshort)
      exact ⟨ls, Outcome.bind_eq_ok_iff.2 ⟨next, hnext, hls⟩⟩

/-- Where every gate that is reached exists and no way is longer than the number of gates, the levels are the
lengths of the longest ways. -/
theorem exists_levels (hgates : ∀ n id, c.Reached n id → ∃ g, c.lastGate id = .ok g)
    (hshort : ∀ id, ¬c.Reached (c.gates.length + 1) id) : ∃ ls, c.levels = .ok ls ∧ Leveled c ls := by
  have hfuel : ∀ id, ¬c.Reached (0 + (c.gates.length + 1)) id := by simpa using hshort
  obtain ⟨ls, hls⟩ := (Swept.start c).exists_sweep hgates hfuel
  exact ⟨ls, hls, (Swept.start c).leveled hls⟩

end Sentential.Circuit
