import Sentential.Proofs.Circuit.GateTree

/-!
# Drafts of circuits

While a formula is being built, the draft has places without gates, for the gates whose operands are not done, and it
counts these gates already. What is in a draft has no influence on what building a formula adds to it, apart from the
number of the gate that was named last: building adds the gates and connections of the formula's tree, numbered from
the next number on, and leaves all that was there as it was, the empty places included (`Builds`,
`Formula.builds_assemble`). An operand is built while the place of the gate behind it is empty, and when it is done this
place is filled (`Draft.fill_add_reserve`). So the circuit that is built from an empty draft is that of the tree
(`Formula.circuit_eq_ofTree`).
-/

namespace Sentential

namespace Circuit

variable {d : Draft} {g : Gate} {c : Connection} {gs hs : List Gate} {cs es : List Connection}
  {counts : List (GateType × Int)}

/-! ## Counts -/

/-- The counts with those of more gates. -/
def countWith (counts : List (GateType × Int)) (gates : List Gate) : List (GateType × Int) :=
  counts.map fun (t, n) => (t, n + (gates.countP (·.type == t) : Nat))

theorem countWith_append : countWith (countWith counts gs) hs = countWith counts (gs ++ hs) := by
  simp [countWith, Int.add_assoc]

/-- The gate for which a place is reserved is counted. -/
theorem counts_reserve : (d.reserve g.type).counts = countWith d.counts [g] := by
  apply List.map_congr_left
  rintro ⟨t, n⟩ -
  by_cases h : t = g.type
  · simp [h]
  · simp [h, Ne.symm h]

/-! ## Drafts with gates added to them -/

/-- The draft with these gates and connections added to it. -/
def Draft.add (d : Draft) (gates : List Gate) (connections : List Connection) : Draft where
  last := d.last + gates.length
  places := d.places ++ gates.map some
  connections := d.connections ++ connections
  counts := countWith d.counts gates

theorem Draft.add_add : (d.add gs cs).add hs es = d.add (gs ++ hs) (cs ++ es) := by
  simp [add, countWith_append, Nat.add_assoc]

theorem Draft.connect_add : (d.add gs cs).connect c = d.add gs (cs ++ [c]) := by
  simp [add, connect]

/-- The place that was reserved is still there, behind what was in the draft before and in front of what was added
since. -/
theorem Draft.fill_add_reserve :
    ((d.reserve g.type).add gs cs).fill d.places.length g = d.add (g :: gs) cs := by
  have hplaces : (d.places ++ [none] ++ gs.map some).set d.places.length (some g) =
      d.places ++ (g :: gs).map some := by
    simp
  have hcounts : countWith (d.reserve g.type).counts gs = countWith d.counts (g :: gs) := by
    rw [counts_reserve, countWith_append, List.singleton_append]
  have hlast : d.last + 1 + gs.length = d.last + (g :: gs).length := by
    rw [List.length_cons]
    omega
  rw [add, add, ← hplaces, ← hcounts, ← hlast]
  rfl

/-! ## Building trees -/

/-- The work builds the tree: whatever the draft is, it adds the gates and connections of the tree to it, numbered from
the next gate on, and gives the signal of the tree. -/
def Builds (work : StateM Draft Ref) (t : GateTree) : Prop :=
  ∀ d : Draft,
    let p := Part.ofTree (d.last + 1) t
    work.run d = (p.output, d.add p.gates p.connections)

variable {work left right : StateM Draft Ref} {t l r : GateTree}

theorem Builds.input (name : String) : Builds (pure (.input name)) (.input name) := by
  intro d p
  have hadd : d.add [] [] = d := by simp [Draft.add, countWith]
  show (Ref.input name, d) = (Ref.input name, d.add [] [])
  rw [hadd]

/-- Linking an operand adds the operand, and behind its connections the one from its signal. -/
theorem Builds.run_link (h : Builds work t) (d : Draft) (target : String) (slot : Slot) :
    let p := Part.ofTree (d.last + 1) t
    (link work target slot).run d = (p.output, d.add p.gates (p.connections ++ [⟨p.output, target, slot⟩])) := by
  intro p
  have hlink : (link work target slot).run d =
      ((work.run d).1, (work.run d).2.connect ⟨(work.run d).1, target, slot⟩) := rfl
  rw [hlink, h d, ← Draft.connect_add]

/-- An inverter is named before its operand is built and put into its place afterwards. -/
theorem Builds.inverter (h : Builds work t) : Builds (inverter work) (.not t) := by
  intro d p
  let name := gateName (d.last + 1)
  let a := Part.ofTree (d.last + 1 + 1) t
  let linked := (link work name .single).run (d.reserve .not)
  have hrun : (Circuit.inverter work).run d =
      (.gate name, linked.2.fill d.places.length ⟨name, .not, [linked.1]⟩) := rfl
  have hlinked : linked = (a.output, (d.reserve .not).add a.gates (a.connections ++ [⟨a.output, name, .single⟩])) :=
    h.run_link _ _ _
  rw [hrun, hlinked]
  exact congrArg (Prod.mk (Ref.gate name)) Draft.fill_add_reserve

/-- The left operand of a gate is built before the right one, which is numbered from where the left one ends. -/
theorem Builds.junction (hl : Builds left l) (hr : Builds right r) (type : GateType) :
    Builds (junction type left right) (.pair type l r) := by
  intro d p
  let name := gateName (d.last + 1)
  let a := Part.ofTree (d.last + 1 + 1) l
  let b := Part.ofTree (d.last + 1 + 1 + l.size) r
  let first := (link left name .left).run (d.reserve type)
  let second := (link right name .right).run first.2
  have hrun : (Circuit.junction type left right).run d =
      (.gate name, second.2.fill d.places.length ⟨name, type, [first.1, second.1]⟩) := rfl
  have hfirst : first = (a.output, (d.reserve type).add a.gates (a.connections ++ [⟨a.output, name, .left⟩])) :=
    hl.run_link _ _ _
  have hlast : first.2.last + 1 = d.last + 1 + 1 + l.size := by
    have hsize : a.gates.length = l.size := Part.length_gates_ofTree _ l
    rw [hfirst]
    show d.last + 1 + a.gates.length + 1 = d.last + 1 + 1 + l.size
    omega
  have hsecond : second = (b.output, first.2.add b.gates (b.connections ++ [⟨b.output, name, .right⟩])) := by
    have hlink := hr.run_link first.2 name .right
    rwa [hlast] at hlink
  rw [hrun, hsecond, hfirst, Draft.add_add]
  exact congrArg (Prod.mk (Ref.gate name)) Draft.fill_add_reserve

end Circuit

/-- Building a formula builds its tree of gates. -/
theorem Formula.builds_assemble (f : Formula) : Circuit.Builds f.assemble f.gateTree := by
  fun_induction assemble f with
  | case1 name => exact .input name
  | case2 op l r type htype ihl ihr =>
    have htree : (not (binary op l r)).gateTree = .pair type l.gateTree r.gateTree := by
      rw [gateTree, GateTree.negated, htype]
    rw [htree]
    exact ihl.junction ihr type
  | case3 op l r htype ih =>
    have htree : (not (binary op l r)).gateTree = .not (binary op l r).gateTree := by
      rw [gateTree, GateTree.negated, htype, gateTree]
    rw [htree]
    exact ih.inverter
  | case4 a hne ih =>
    cases a with
    | var name => exact ih.inverter
    | not a => exact ih.inverter
    | binary op l r => exact absurd rfl (hne op l r)
  | case5 op l r ihl ihr => exact ihl.junction ihr op.gate

/-- The circuit of a formula is that of its tree of gates. -/
theorem Formula.circuit_eq_ofTree (f : Formula) : f.circuit = Circuit.ofTree f.gateTree := by
  let p := Circuit.Part.ofTree 1 f.gateTree
  have hrun : f.assemble.run { } = (p.output, ({ } : Circuit.Draft).add p.gates p.connections) := f.builds_assemble { }
  have hgates : (p.gates.map some).filterMap id = p.gates := by
    rw [List.filterMap_map]
    exact List.filterMap_some
  have hcounts : Circuit.countWith ({ } : Circuit.Draft).counts p.gates = Circuit.countsOf p.gates := by
    simp [Circuit.countWith, Circuit.countsOf]
  rw [circuit, hrun]
  show Circuit.mk ((p.gates.map some).filterMap id) p.connections p.output
    (Circuit.countWith ({ } : Circuit.Draft).counts p.gates) = Circuit.ofTree f.gateTree
  rw [hgates, hcounts]
  rfl

end Sentential
