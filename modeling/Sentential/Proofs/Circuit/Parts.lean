import Sentential.Proofs.Circuit.Numbering

/-!
# The shape of the parts of a circuit

A part of a circuit is a tree. Its output and the inputs of its gates refer to each of its gates once
(`Part.references_perm`), and an input always refers to a gate that is listed later
(`Part.reference_after`). A connection is listed for each input of a gate and for nothing else
(`Part.filter_connections`, `Part.exists_target`). The number of gates is read off the formula
(`Formula.size_gateTree`).
-/

namespace Sentential

/-- The inputs that a gate of the kind has, in their order. -/
def GateType.slots : GateType → List Circuit.Slot
  | not => [.single]
  | _ => [.left, .right]

theorem GateType.slots_of_ne_not {type : GateType} (h : type ≠ .not) : type.slots = [.left, .right] := by
  cases type with
  | not => exact absurd rfl h
  | _ => rfl

/-- Only inverters are gates of one input. -/
def GateTree.Proper : GateTree → Prop
  | input _ => True
  | not a => a.Proper
  | pair type l r => type ≠ .not ∧ l.Proper ∧ r.Proper

namespace Formula

/-- The number of negations and binary connectives. -/
def connectives : Formula → Nat
  | var _ => 0
  | not a => a.connectives + 1
  | binary _ l r => l.connectives + r.connectives + 1

/-- The formula is a conjunction, a disjunction or an exclusive or. -/
def isInvertible : Formula → Bool
  | binary .and _ _ => true
  | binary .or _ _ => true
  | binary .xor _ _ => true
  | _ => false

/-- The number of negations that stand directly on a conjunction, a disjunction or an exclusive or. -/
def joinedNegations : Formula → Nat
  | var _ => 0
  | not a => a.joinedNegations + if a.isInvertible then 1 else 0
  | binary _ l r => l.joinedNegations + r.joinedNegations

/-- A negated connective has two gates, or one gate where the negation is joined with it. -/
theorem size_negated (op : Connective) (a b : Formula) (l r : GateTree) :
    (GateTree.negated op l r).size + (if (binary op a b).isInvertible then 1 else 0) = l.size + r.size + 2 := by
  cases op <;> rfl

/-- Every connective has a gate of its own, except for the negations that are joined with what they negate. -/
theorem size_gateTree (f : Formula) : f.gateTree.size + f.joinedNegations = f.connectives := by
  fun_induction gateTree f with
  | case1 name => rfl
  | case2 op l r ihl ihr =>
    have hsize := size_negated op l r l.gateTree r.gateTree
    simp only [joinedNegations, connectives]
    omega
  | case3 a ih =>
    have hplain : (not a).isInvertible = false := rfl
    rw [GateTree.size, joinedNegations, connectives, hplain, if_neg Bool.false_ne_true]
    omega
  | case4 name => rfl
  | case5 op l r ihl ihr =>
    rw [GateTree.size, joinedNegations, connectives]
    omega

theorem proper_gateTree (f : Formula) : f.gateTree.Proper := by
  fun_induction gateTree f with
  | case1 name => trivial
  | case2 op l r ihl ihr =>
    cases op <;> simp [GateTree.negated, Connective.negatedGate?, GateTree.Proper, Connective.gate, ihl, ihr]
  | case3 a ih => exact ih
  | case4 name => trivial
  | case5 op l r ihl ihr =>
    cases op <;> simp [GateTree.Proper, Connective.gate, ihl, ihr]

end Formula

namespace Circuit

/-- The connections to the inputs of a gate. -/
def Gate.connections (g : Gate) : List Connection :=
  List.zipWith (fun source slot => ⟨source, g.id, slot⟩) g.inputs g.type.slots

variable {t : GateTree} {n k : Nat} {g : Gate} {id : String}

namespace Part

/-- The gate at a place bears the number of the place. -/
theorem id_of_getElem? (h : (ofTree n t).gates[k]? = some g) : k < t.size ∧ g.id = gateName (n + k) := by
  have hids := congrArg (·[k]?) (ids_ofTree n t)
  obtain ⟨hlt, _⟩ := List.getElem?_eq_some_iff.1 h
  rw [length_gates_ofTree] at hlt
  simp only [List.getElem?_map, h, Option.map_some, List.getElem?_range' hlt, Nat.one_mul, Option.some_inj] at hids
  exact ⟨hlt, hids⟩

theorem exists_getElem? (h : k < t.size) : ∃ g, (ofTree n t).gates[k]? = some g ∧ g.id = gateName (n + k) := by
  rw [← length_gates_ofTree n t] at h
  have hget := List.getElem?_eq_getElem h
  exact ⟨_, hget, (id_of_getElem? hget).2⟩

/-- A part with a gate at its output has it at its first place. -/
theorem eq_gateName_of_output (h : (ofTree n t).output = .gate id) : 0 < t.size ∧ id = gateName n := by
  cases t with
  | input name => cases h
  | not a =>
    cases h
    exact ⟨Nat.succ_pos _, rfl⟩
  | pair type l r =>
    cases h
    exact ⟨Nat.succ_pos _, rfl⟩

/-- An input of a gate refers to a gate that is listed later. -/
theorem reference_after (hg : (ofTree n t).gates[k]? = some g) (hid : .gate id ∈ g.inputs) :
    ∃ m, k < m ∧ m < t.size ∧ id = gateName (n + m) := by
  induction t generalizing n k with
  | input name => cases hg
  | not a ih =>
    rw [GateTree.size]
    cases k with
    | zero =>
      cases hg
      obtain ⟨hsize, rfl⟩ := eq_gateName_of_output (List.mem_singleton.1 hid).symm
      exact ⟨1, by omega, by omega, rfl⟩
    | succ k =>
      obtain ⟨m, hk, hm, rfl⟩ := ih hg
      exact ⟨m + 1, by omega, by omega, congrArg gateName (by omega)⟩
  | pair type l r ihl ihr =>
    rw [GateTree.size]
    cases k with
    | zero =>
      cases hg
      simp only [List.mem_cons, List.not_mem_nil, or_false] at hid
      rcases hid with hid | hid
      · obtain ⟨hsize, rfl⟩ := eq_gateName_of_output hid.symm
        exact ⟨1, by omega, by omega, rfl⟩
      · obtain ⟨hsize, rfl⟩ := eq_gateName_of_output hid.symm
        exact ⟨1 + l.size, by omega, by omega, congrArg gateName (by omega)⟩
    | succ k =>
      have hrest : ((ofTree (n + 1) l).gates ++ (ofTree (n + 1 + l.size) r).gates)[k]? = some g := hg
      rw [List.getElem?_append, length_gates_ofTree] at hrest
      split at hrest
      next hlt =>
        obtain ⟨m, hk, hm, rfl⟩ := ihl hrest
        exact ⟨m + 1, by omega, by omega, congrArg gateName (by omega)⟩
      next hge =>
        obtain ⟨m, hk, hm, rfl⟩ := ihr hrest
        exact ⟨m + 1 + l.size, by omega, by omega, congrArg gateName (by omega)⟩

/-- The output and the inputs of the gates refer to every gate once. -/
theorem references_perm (n : Nat) (t : GateTree) :
    (((ofTree n t).output :: (ofTree n t).gates.flatMap (·.inputs)).filterMap Ref.gate?).Perm
      ((ofTree n t).gates.map (·.id)) := by
  induction t generalizing n with
  | input name => exact .nil
  | not a ih => exact (ih (n + 1)).cons _
  | pair type l r ihl ihr =>
    have hinputs : ((ofTree (n + 1) l).output :: (ofTree (n + 1 + l.size) r).output ::
        ((ofTree (n + 1) l).gates ++ (ofTree (n + 1 + l.size) r).gates).flatMap (·.inputs)).Perm
        (((ofTree (n + 1) l).output :: (ofTree (n + 1) l).gates.flatMap (·.inputs)) ++
          ((ofTree (n + 1 + l.size) r).output :: (ofTree (n + 1 + l.size) r).gates.flatMap (·.inputs))) := by
      rw [List.flatMap_append]
      exact List.perm_middle.symm.cons _
    refine .cons _ ((hinputs.filterMap _).trans ?_)
    rw [List.filterMap_append, List.map_append]
    exact (ihl (n + 1)).append (ihr (n + 1 + l.size))

/-- A connection leads to a gate of the part. -/
theorem exists_target {e : Connection} (he : e ∈ (ofTree n t).connections) :
    ∃ g ∈ (ofTree n t).gates, g.id = e.target := by
  induction t generalizing n with
  | input name => cases he
  | not a ih =>
    rcases List.mem_append.1 he with he | he
    · obtain ⟨g, hg, htarget⟩ := ih he
      exact ⟨g, List.mem_cons_of_mem _ hg, htarget⟩
    · obtain rfl := List.mem_singleton.1 he
      exact ⟨_, List.mem_cons_self, rfl⟩
  | pair type l r ihl ihr =>
    simp only [ofTree, List.mem_append, List.mem_singleton] at he
    rcases he with (he | rfl) | he | rfl
    · obtain ⟨g, hg, htarget⟩ := ihl he
      exact ⟨g, List.mem_cons_of_mem _ (List.mem_append_left _ hg), htarget⟩
    · exact ⟨_, List.mem_cons_self, rfl⟩
    · obtain ⟨g, hg, htarget⟩ := ihr he
      exact ⟨g, List.mem_cons_of_mem _ (List.mem_append_right _ hg), htarget⟩
    · exact ⟨_, List.mem_cons_self, rfl⟩

/-- No connection of a part leads to a gate elsewhere. -/
theorem filter_connections_of_not_mem (h : id ∉ (ofTree n t).gates.map (·.id)) :
    (ofTree n t).connections.filter (·.target == id) = [] := by
  refine List.filter_eq_nil_iff.2 fun e he htarget => ?_
  obtain ⟨g, hg, hid⟩ := exists_target he
  exact h (List.mem_map.2 ⟨g, hg, hid.trans (eq_of_beq htarget)⟩)

/-- The connections to a gate are those to its inputs, in their order. -/
theorem filter_connections (ht : t.Proper) (hg : g ∈ (ofTree n t).gates) :
    (ofTree n t).connections.filter (·.target == g.id) = g.connections := by
  induction t generalizing n with
  | input name => cases hg
  | not a ih =>
    have hnodup := nodup_ids_ofTree n (.not a)
    simp only [ofTree, List.map_cons, List.nodup_cons] at hnodup
    simp only [ofTree, List.filter_append]
    rcases List.mem_cons.1 hg with rfl | hg
    · rw [filter_connections_of_not_mem hnodup.1]
      simp [Gate.connections, GateType.slots]
    · have hne : gateName n ≠ g.id := fun heq => hnodup.1 (List.mem_map.2 ⟨g, hg, heq.symm⟩)
      rw [ih ht hg]
      simp [hne]
  | pair type l r ihl ihr =>
    obtain ⟨htype, hl, hr⟩ := ht
    have hnodup := nodup_ids_ofTree n (.pair type l r)
    simp only [ofTree, List.map_cons, List.map_append, List.nodup_cons, List.mem_append, not_or,
      List.nodup_append] at hnodup
    obtain ⟨⟨hleft, hright⟩, _, _, hdisjoint⟩ := hnodup
    simp only [ofTree, List.filter_append]
    rcases List.mem_cons.1 hg with rfl | hg
    · rw [filter_connections_of_not_mem hleft, filter_connections_of_not_mem hright, Gate.connections,
        GateType.slots_of_ne_not htype]
      simp
    -- The gates of one operand have no connections in the other one.
    rcases List.mem_append.1 hg with hg | hg
    · have hid : g.id ∈ (ofTree (n + 1) l).gates.map (·.id) := List.mem_map.2 ⟨g, hg, rfl⟩
      have hne : gateName n ≠ g.id := fun heq => hleft (heq ▸ hid)
      rw [ihl hl hg, filter_connections_of_not_mem fun hmem => hdisjoint g.id hid g.id hmem rfl]
      simp [hne]
    · have hid : g.id ∈ (ofTree (n + 1 + l.size) r).gates.map (·.id) := List.mem_map.2 ⟨g, hg, rfl⟩
      have hne : gateName n ≠ g.id := fun heq => hright (heq ▸ hid)
      rw [ihr hr hg, filter_connections_of_not_mem fun hmem => hdisjoint g.id hmem g.id hid rfl]
      simp [hne]

/-- A gate has as many inputs as its kind has places for them. -/
theorem length_inputs (ht : t.Proper) (hg : g ∈ (ofTree n t).gates) : g.inputs.length = g.type.slots.length := by
  induction t generalizing n with
  | input name => cases hg
  | not a ih =>
    rcases List.mem_cons.1 hg with rfl | hg
    · rfl
    · exact ih ht hg
  | pair type l r ihl ihr =>
    obtain ⟨htype, hl, hr⟩ := ht
    rcases List.mem_cons.1 hg with rfl | hg
    · exact congrArg List.length (GateType.slots_of_ne_not htype).symm
    · rcases List.mem_append.1 hg with hg | hg
      · exact ihl hl hg
      · exact ihr hr hg

end Part

end Circuit

end Sentential
