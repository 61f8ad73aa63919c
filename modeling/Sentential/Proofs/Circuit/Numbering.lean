import Mathlib.Data.List.Nodup
import Sentential.Proofs.Circuit.GateTree

/-!
# Numbers of gates

The gates of a tree are named by consecutive numbers in the order in which they are listed
(`Part.ids_ofTree`). Different numbers give different names, so that no two gates of a circuit
share one (`Part.nodup_ids_ofTree`), and looking a gate up by its name finds that gate and no other (`find?_id`).
-/

namespace Sentential.Circuit

/-- The digits of a number give the number back. -/
theorem gateName_injective : Function.Injective gateName := by
  intro m n h
  have hlists := congrArg String.toList h
  simp only [gateName, String.toList_append] at hlists
  have hdigits : Nat.toDigits 10 m = Nat.toDigits 10 n := by
    simpa [Nat.toString_eq_ofList_toDigits] using List.append_cancel_left hlists
  rw [← Nat.ofDigitChars_ten_toDigits (n := m), hdigits, Nat.ofDigitChars_ten_toDigits]

/-- The gates of a part bear the numbers from `n` on, in their order. -/
theorem Part.ids_ofTree (n : Nat) (t : GateTree) :
    (ofTree n t).gates.map (·.id) = (List.range' n t.size).map gateName := by
  induction t generalizing n with
  | input name => rfl
  | not a ih => simp [ofTree, GateTree.size, List.range'_succ, ih]
  | pair type l r ihl ihr =>
    have hsplit : List.range' (n + 1) (l.size + r.size) =
        List.range' (n + 1) l.size ++ List.range' (n + 1 + l.size) r.size :=
      List.range'_append_1.symm
    simp only [ofTree, GateTree.size, List.map_cons, List.map_append, ihl, ihr, List.range'_succ, hsplit]

/-- No two gates of a part share a name. -/
theorem Part.nodup_ids_ofTree (n : Nat) (t : GateTree) : ((ofTree n t).gates.map (·.id)).Nodup := by
  rw [ids_ofTree]
  exact List.Nodup.map gateName_injective List.nodup_range'

/-- Among gates with different names, looking one up by its name finds it. -/
theorem find?_id {gates : List Gate} (hnodup : (gates.map (·.id)).Nodup) {g : Gate} (hg : g ∈ gates) :
    gates.find? (·.id == g.id) = some g := by
  obtain ⟨before, after, rfl⟩ := List.append_of_mem hg
  rw [List.find?_eq_some_iff_append]
  refine ⟨by simp, before, after, rfl, ?_⟩
  intro g' hg'
  have hne : g'.id ≠ g.id := by
    rw [List.map_append, List.map_cons] at hnodup
    exact (List.nodup_append.1 hnodup).2.2 _ (List.mem_map_of_mem hg') _ List.mem_cons_self
  simpa using hne

end Sentential.Circuit
