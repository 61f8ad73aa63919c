import Sentential.Proofs.Circuit.Build
import Sentential.Proofs.Circuit.Levels
import Sentential.Proofs.Circuit.Parts

/-!
# The shape of a formula's circuit

Every gate of a formula's circuit but the first feeds one gate in one place (`Circuit.references_ofTree`). So
only one way leads to it from the output (`Circuit.reached_unique`), and it lies one level behind the gate
that it feeds (`Circuit.exists_levels_ofTree`). `Circuit.IsTreeOf` collects what the list of gates, the
connections, the counts and the levels are like. It holds of the circuit of a tree (`Formula.isTreeOf_ofTree`), and
so of the circuit that is built for a formula (`Formula.circuit_isTreeOf`).
-/

namespace Sentential

namespace Circuit

variable {c : Circuit} {t : GateTree} {n m k : Nat} {g : Gate} {id id' : String}

/-! ## References -/

/-- How many inputs of gates refer to the gate with this name. -/
def references (c : Circuit) (id : String) : Nat := (c.gates.flatMap (·.inputs)).count (.gate id)

theorem Gate.mem_feeders_iff : id ∈ g.feeders ↔ .gate id ∈ g.inputs := by
  unfold feeders
  rw [List.mem_filterMap]
  constructor
  · rintro ⟨ref, hmem, href⟩
    cases ref with
    | gate id' =>
      cases href
      exact hmem
    | input name => cases href
  · intro hmem
    exact ⟨_, hmem, rfl⟩

theorem count_filterMap_gate? (refs : List Ref) (id : String) :
    (refs.filterMap Ref.gate?).count id = refs.count (.gate id) := by
  induction refs with
  | nil => rfl
  | cons ref refs ih =>
    cases ref with
    | gate id' => simp [Ref.gate?, List.count_cons, ih]
    | input name => simp [Ref.gate?, List.filterMap_cons, ih]

/-- An entry that lists made one from each of some things have at most once comes from one of these things. -/
theorem eq_of_count_flatMap_le_one {α β : Type} [BEq β] [LawfulBEq β] {xs : List α} {h : α → List β} {b : β}
    (hcount : (xs.flatMap h).count b ≤ 1) {x y : α} (hx : x ∈ xs) (hy : y ∈ xs) (hbx : b ∈ h x)
    (hby : b ∈ h y) : x = y := by
  induction xs with
  | nil => cases hx
  | cons z zs ih =>
    rw [List.flatMap_cons, List.count_append] at hcount
    have hrest : ∀ {w}, w ∈ zs → b ∈ h w → 0 < (zs.flatMap h).count b := by
      intro w hw hbw
      exact List.count_pos_iff.2 (List.mem_flatMap.2 ⟨w, hw, hbw⟩)
    rcases List.mem_cons.1 hx with rfl | hx' <;> rcases List.mem_cons.1 hy with rfl | hy'
    · rfl
    · have hfirst : 0 < (h x).count b := List.count_pos_iff.2 hbx
      have hsecond := hrest hy' hby
      omega
    · have hfirst : 0 < (h y).count b := List.count_pos_iff.2 hby
      have hsecond := hrest hx' hbx
      omega
    · exact ih (by omega) hx' hy'

theorem lastGate_of_mem (hnodup : (c.gates.map (·.id)).Nodup) (hg : g ∈ c.gates) : c.lastGate g.id = .ok g := by
  have hnodup' : (c.gates.reverse.map (·.id)).Nodup := by
    rw [List.map_reverse]
    exact List.nodup_reverse.2 hnodup
  rw [lastGate, find?_id hnodup' (List.mem_reverse.2 hg)]

/-- Where no two gates share a name, a gate feeds those that have it as an input. -/
theorem feeds_iff (hnodup : (c.gates.map (·.id)).Nodup) :
    c.Feeds id' id ↔ ∃ g ∈ c.gates, g.id = id ∧ .gate id' ∈ g.inputs := by
  unfold Feeds
  constructor
  · rintro ⟨g, hlast, hfeeds⟩
    obtain ⟨hmem, hid⟩ := mem_of_lastGate hlast
    exact ⟨g, hmem, hid, Gate.mem_feeders_iff.1 hfeeds⟩
  · rintro ⟨g, hg, rfl, hfeeds⟩
    exact ⟨g, lastGate_of_mem hnodup hg, Gate.mem_feeders_iff.2 hfeeds⟩

/-! ## Circuits of trees -/

theorem exists_place (hg : g ∈ (ofTree t).gates) :
    ∃ k, (ofTree t).gates[k]? = some g ∧ k < t.size ∧ g.id = gateName (1 + k) := by
  obtain ⟨k, hk⟩ := List.getElem?_of_mem hg
  exact ⟨k, hk, Part.id_of_getElem? hk⟩

/-- A circuit with gates has the first one at its output. -/
theorem output_ofTree (h : 0 < t.size) : (ofTree t).output = .gate (gateName 1) := by
  cases t with
  | input name => cases h
  | not a => rfl
  | pair type l r => rfl

/-- The first gate feeds none, and every other one feeds one gate in one place. -/
theorem references_ofTree (hg : g ∈ (ofTree t).gates) :
    (ofTree t).references g.id = if g.id = gateName 1 then 0 else 1 := by
  obtain ⟨k, _, hsize, _⟩ := exists_place hg
  have hcount := (Part.references_perm 1 t).count_eq g.id
  have hone : ((Part.ofTree 1 t).gates.map (·.id)).count g.id = 1 :=
    List.count_eq_one_of_mem (Part.nodup_ids_ofTree 1 t) (List.mem_map.2 ⟨g, hg, rfl⟩)
  have houtput : (Part.ofTree 1 t).output = .gate (gateName 1) := output_ofTree (by omega)
  rw [count_filterMap_gate?, hone, List.count_cons, houtput] at hcount
  change references (ofTree t) g.id + _ = 1 at hcount
  split
  next heq =>
    rw [heq] at hcount ⊢
    simpa using hcount
  next hne =>
    simpa [Ne.symm hne] using hcount

theorem references_le_one (hid : ∃ g ∈ (ofTree t).gates, g.id = id) : (ofTree t).references id ≤ 1 := by
  obtain ⟨g, hg, rfl⟩ := hid
  rw [references_ofTree hg]
  split <;> omega

/-- Whatever feeds a gate is listed behind it. -/
theorem exists_place_of_feeds (h : (ofTree t).Feeds id' id) :
    ∃ g ∈ (ofTree t).gates, g.id = id ∧ .gate id' ∈ g.inputs ∧
      ∃ k m, k < m ∧ m < t.size ∧ id = gateName (1 + k) ∧ id' = gateName (1 + m) := by
  obtain ⟨g, hg, rfl, hid'⟩ := (feeds_iff (Part.nodup_ids_ofTree 1 t)).1 h
  obtain ⟨k, hk, _, hid⟩ := exists_place hg
  obtain ⟨m, hkm, hm, hid''⟩ := Part.reference_after hk hid'
  exact ⟨g, hg, rfl, hid', k, m, hkm, hm, hid, hid''⟩

/-- A gate that is reached over some references is listed behind as many others. -/
theorem place_of_reached (h : (ofTree t).Reached n id) : ∃ k, n ≤ k ∧ k < t.size ∧ id = gateName (1 + k) := by
  induction h with
  | output h =>
    obtain ⟨hsize, rfl⟩ := Part.eq_gateName_of_output h
    exact ⟨0, Nat.le_refl 0, hsize, rfl⟩
  | feeds _ hf ih =>
    obtain ⟨k, hn, _, rfl⟩ := ih
    obtain ⟨_, _, _, _, k', m, hkm, hm, hk, rfl⟩ := exists_place_of_feeds hf
    have hplace := gateName_injective hk
    exact ⟨m, by omega, hm, rfl⟩

/-- Every gate is reached: the first one is at the output, and any other feeds one that is listed before it. -/
theorem exists_reached (hk : (ofTree t).gates[k]? = some g) : ∃ n, (ofTree t).Reached n g.id := by
  induction k using Nat.strongRecOn generalizing g with
  | ind k ih =>
    obtain ⟨hsize, hid⟩ := Part.id_of_getElem? hk
    by_cases hfirst : g.id = gateName 1
    · exact ⟨0, .output (hfirst ▸ output_ofTree (by omega))⟩
    · have hone := references_ofTree (List.mem_of_getElem? hk)
      rw [if_neg hfirst] at hone
      have hmem : .gate g.id ∈ (ofTree t).gates.flatMap (·.inputs) := List.count_pos_iff.1 (by
        rw [references] at hone
        omega)
      obtain ⟨g', hg', hinput⟩ := List.mem_flatMap.1 hmem
      obtain ⟨k', hk', _, hid'⟩ := exists_place hg'
      obtain ⟨m, hkm, _, hm⟩ := Part.reference_after hk' hinput
      have hplace := gateName_injective (hid.symm.trans hm)
      obtain ⟨n, hn⟩ := ih k' (by omega) hk'
      exact ⟨n + 1, .feeds hn ((feeds_iff (Part.nodup_ids_ofTree 1 t)).2 ⟨g', hg', rfl, hinput⟩)⟩

/-- The first gate feeds none. -/
theorem not_feeds_first : ¬(ofTree t).Feeds (gateName 1) id := by
  intro h
  obtain ⟨_, _, _, _, k, m, hkm, _, _, hm⟩ := exists_place_of_feeds h
  have hplace := gateName_injective hm
  omega

/-- Only one way leads to a gate, so all have the same length. -/
theorem reached_unique (h : (ofTree t).Reached n id) (h' : (ofTree t).Reached m id) : n = m := by
  have houtput : ∀ {n id}, (ofTree t).Reached 0 id → ¬(ofTree t).Reached (n + 1) id := by
    intro n id hzero hsucc
    obtain ⟨_, rfl⟩ := Part.eq_gateName_of_output hzero.output_eq
    obtain ⟨_, _, hfeeds⟩ := hsucc.exists_feeds
    exact not_feeds_first hfeeds
  induction n generalizing id m with
  | zero =>
    cases m with
    | zero => rfl
    | succ m => exact absurd h' (houtput h)
  | succ n ih =>
    cases m with
    | zero => exact absurd h (houtput h')
    | succ m =>
      obtain ⟨i, hi, hfeeds⟩ := h.exists_feeds
      obtain ⟨j, hj, hfeeds'⟩ := h'.exists_feeds
      obtain ⟨g, hg, rfl, hinput, _, p, _, hp, _, rfl⟩ := exists_place_of_feeds hfeeds
      obtain ⟨g', hg', rfl, hinput', _⟩ := exists_place_of_feeds hfeeds'
      obtain ⟨target, htarget, hname⟩ := Part.exists_getElem? hp
      have hcount := references_le_one ⟨target, List.mem_of_getElem? htarget, hname⟩
      obtain rfl := eq_of_count_flatMap_le_one hcount hg hg' hinput hinput'
      exact congrArg (· + 1) (ih hi hj)

/-- The circuit of a tree has levels: the gate at the output is on level 0, and what feeds a gate is one level
behind it. -/
theorem exists_levels_ofTree (t : GateTree) : ∃ ls, (ofTree t).levels = .ok ls ∧
    (ls.map Prod.fst).Perm ((ofTree t).gates.map (·.id)) ∧
    (∀ id, (ofTree t).output = .gate id → ls.lookup id = some 0) ∧
    ∀ g ∈ (ofTree t).gates, ∀ id, .gate id ∈ g.inputs →
      ∃ m, ls.lookup g.id = some m ∧ ls.lookup id = some (m + 1) := by
  have hnodup := Part.nodup_ids_ofTree 1 t
  have hgates : ∀ n id, (ofTree t).Reached n id → ∃ g, (ofTree t).lastGate id = .ok g := by
    intro n id h
    obtain ⟨k, _, hk, rfl⟩ := place_of_reached h
    obtain ⟨g, hg, hid⟩ := Part.exists_getElem? hk
    exact ⟨g, hid ▸ lastGate_of_mem hnodup (List.mem_of_getElem? hg)⟩
  have hshort : ∀ id, ¬(ofTree t).Reached ((ofTree t).gates.length + 1) id := by
    intro id h
    obtain ⟨k, hle, hk, _⟩ := place_of_reached h
    have hlength : (ofTree t).gates.length = t.size := Part.length_gates_ofTree 1 t
    omega
  obtain ⟨ls, hls, hleveled⟩ := exists_levels hgates hshort
  have hlookup : ∀ id m, ls.lookup id = some m ↔ (ofTree t).Reached m id := by
    intro id m
    rw [hleveled.lookup_iff]
    exact ⟨And.left, fun h => ⟨h, fun k hk => Nat.le_of_eq (reached_unique hk h)⟩⟩
  refine ⟨ls, hls, ?_, fun id h => (hlookup id 0).2 (.output h), fun g hg id hid => ?_⟩
  · refine (List.perm_ext_iff_of_nodup hleveled.nodup hnodup).2 fun id => ?_
    rw [Record.mem_keys_iff, List.mem_map]
    constructor
    · rintro ⟨m, hm⟩
      obtain ⟨k, _, hk, rfl⟩ := place_of_reached ((hlookup id m).1 hm)
      obtain ⟨g, hg, hid⟩ := Part.exists_getElem? hk
      exact ⟨g, List.mem_of_getElem? hg, hid⟩
    · rintro ⟨g, hg, rfl⟩
      obtain ⟨k, hk, _⟩ := exists_place hg
      obtain ⟨n, hn⟩ := exists_reached hk
      exact ⟨n, (hlookup g.id n).2 hn⟩
  · obtain ⟨k, hk, _⟩ := exists_place hg
    obtain ⟨n, hn⟩ := exists_reached hk
    have hfeeds : (ofTree t).Feeds id g.id := (feeds_iff hnodup).2 ⟨g, hg, rfl, hid⟩
    exact ⟨n, (hlookup g.id n).2 hn, (hlookup id (n + 1)).2 (.feeds hn hfeeds)⟩

/-- The circuit is built for the formula: a tree of gates, numbered from its output on. -/
structure IsTreeOf (c : Circuit) (f : Formula) : Prop where
  /-- The gates bear the numbers of their places. -/
  id_eq : ∀ (k : Nat) (g : Gate), c.gates[k]? = some g → g.id = gateName (k + 1)
  /-- A reference to a gate leads to a later place. -/
  reference_after : ∀ (k : Nat) (g : Gate) (id : String), c.gates[k]? = some g → .gate id ∈ g.inputs →
    ∃ (m : Nat) (g' : Gate), k < m ∧ c.gates[m]? = some g' ∧ g'.id = id
  /-- The output is the first gate, or else the formula is a variable, and there are no gates. -/
  output_eq : (∃ name, f = .var name ∧ c.output = .input name ∧ c.gates = []) ∨
    ((∀ name, f ≠ .var name) ∧ c.output = .gate (gateName 1) ∧ c.gates ≠ [])
  /-- The first gate is no input, and every other one is an input of one gate in one place. -/
  references_eq : ∀ g ∈ c.gates, c.references g.id = if g.id = gateName 1 then 0 else 1
  /-- The connections to a gate are its inputs in order, in the places that its kind has for them. -/
  connections_eq : ∀ g ∈ c.gates, g.inputs.length = g.type.slots.length ∧
    c.connections.filter (·.target == g.id) =
      List.zipWith (fun source slot => ⟨source, g.id, slot⟩) g.inputs g.type.slots
  /-- There are no other connections. -/
  exists_target : ∀ e ∈ c.connections, ∃ g ∈ c.gates, g.id = e.target
  /-- Every kind of gate is counted. -/
  counts_eq : c.counts.map Prod.fst = GateType.all ∧
    ∀ type, c.counts.lookup type = some ((c.gates.countP (·.type == type) : Nat) : Int)
  /-- Every connective has its gate, except for negations that are joined with what they negate. -/
  length_gates : c.gates.length + f.joinedNegations = f.connectives
  /-- Every gate has a level, 0 at the output and one more than the gate that it feeds. -/
  exists_levels : ∃ ls, c.levels = .ok ls ∧ (ls.map Prod.fst).Perm (c.gates.map (·.id)) ∧
    (∀ id, c.output = .gate id → ls.lookup id = some 0) ∧
    ∀ g ∈ c.gates, ∀ id, .gate id ∈ g.inputs →
      ∃ level, ls.lookup g.id = some level ∧ ls.lookup id = some (level + 1)

theorem lookup_countsOf (gates : List Gate) (type : GateType) :
    (countsOf gates).lookup type = some ((gates.countP (·.type == type) : Nat) : Int) := by
  cases type <;> rfl

end Circuit

/-- A formula other than a variable has gates. -/
theorem Formula.size_gateTree_pos {f : Formula} (h : ∀ name, f ≠ .var name) : 0 < f.gateTree.size := by
  fun_cases gateTree f with
  | case1 name => exact absurd rfl (h name)
  | case2 op l r => cases op <;> exact Nat.succ_pos _
  | case3 a => exact Nat.succ_pos _
  | case4 name => exact Nat.succ_pos _
  | case5 op l r => exact Nat.succ_pos _

/-- The circuit of the gates of a formula is what a circuit for the formula should be. -/
theorem Formula.isTreeOf_ofTree (f : Formula) : (Circuit.ofTree f.gateTree).IsTreeOf f where
  id_eq k g hk := by
    have hid := (Circuit.Part.id_of_getElem? hk).2
    rwa [Nat.add_comm] at hid
  reference_after k g id hk hid := by
    obtain ⟨m, hkm, hm, rfl⟩ := Circuit.Part.reference_after hk hid
    obtain ⟨g', hg', hid'⟩ := Circuit.Part.exists_getElem? hm
    exact ⟨m, g', hkm, hg', hid'⟩
  output_eq := by
    by_cases hvar : ∃ name, f = .var name
    · obtain ⟨name, rfl⟩ := hvar
      exact .inl ⟨name, rfl, rfl, rfl⟩
    · have hne : ∀ name, f ≠ .var name := fun name heq => hvar ⟨name, heq⟩
      have hsize := size_gateTree_pos hne
      have hlength : (Circuit.ofTree f.gateTree).gates.length = f.gateTree.size :=
        Circuit.Part.length_gates_ofTree 1 f.gateTree
      exact .inr ⟨hne, Circuit.output_ofTree hsize, List.ne_nil_of_length_pos (by omega)⟩
  references_eq g hg := Circuit.references_ofTree hg
  connections_eq g hg :=
    ⟨Circuit.Part.length_inputs f.proper_gateTree hg, Circuit.Part.filter_connections f.proper_gateTree hg⟩
  exists_target e he := Circuit.Part.exists_target he
  counts_eq := ⟨rfl, Circuit.lookup_countsOf _⟩
  length_gates := by
    have hlength : (Circuit.ofTree f.gateTree).gates.length = f.gateTree.size :=
      Circuit.Part.length_gates_ofTree 1 f.gateTree
    rw [hlength]
    exact f.size_gateTree
  exists_levels := Circuit.exists_levels_ofTree f.gateTree

/-- The circuit that is built for a formula is a tree of gates, numbered from its output on, with a connection for
each input, the counts of the kinds, a gate for each connective that is not joined with another one, and the
distances from the output as levels. -/
theorem Formula.circuit_isTreeOf (f : Formula) : f.circuit.IsTreeOf f := by
  rw [f.circuit_eq_ofTree]
  exact f.isTreeOf_ofTree

/-- In the circuit of `(p ∧ q) ∨ ¬r` two gates feed the one at the output. -/
example : (Formula.binary .or (.binary .and (.var "p") (.var "q")) (.not (.var "r"))).circuit.levels =
    .ok [("gate1", 0), ("gate2", 1), ("gate3", 1)] := by rfl

end Sentential
