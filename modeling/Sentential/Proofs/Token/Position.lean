import Sentential.Proofs.Token.Offence

/-!
# Where tokens stand

A token carries the position of its first character. What a scan finds stands in the text at the position of
its token (`Scans.standsAt`), and so does what the fault of an offending place reports
(`Offends.standsAt`). `StandsAt` says it by the parts of the text around it; `standsAt_drop_take`
reads it off as a slice.
-/

namespace Sentential

/-- The text `s` is not empty and stands in `cs` at position `i`. -/
def Text.StandsAt (s : String) (cs : List Char) (i : Int) : Prop :=
  s.toList ≠ [] ∧ ∃ before after, cs = before ++ (s.toList ++ after) ∧ i = before.length

namespace Text.StandsAt

variable {s : String} {cs : List Char} {i : Int}

/-- The character of a text at a position stands there. -/
theorem of_getElem? {c : Char} {i : Nat} (h : cs[i]? = some c) : StandsAt (String.ofList [c]) cs i := by
  obtain ⟨hlt, rfl⟩ := List.getElem?_eq_some_iff.1 h
  refine ⟨by simp, cs.take i, cs.drop (i + 1), ?_, ?_⟩
  · rw [String.toList_ofList, List.singleton_append, List.getElem_cons_drop, List.take_append_drop]
  · rw [List.length_take, Nat.min_eq_left hlt.le]

/-- Something stands at positions inside the text only. -/
theorem bounds (h : StandsAt s cs i) : 0 ≤ i ∧ i < cs.length := by
  obtain ⟨hne, before, after, rfl, rfl⟩ := h
  have hpos : 0 < s.toList.length := List.length_pos_iff.2 hne
  simp only [List.length_append]
  omega

/-- What stands at a position is the slice of its length there. -/
theorem drop_take (h : StandsAt s cs i) : (cs.drop i.toNat).take s.length = s.toList := by
  obtain ⟨_, before, after, rfl, rfl⟩ := h
  rw [Int.toNat_natCast, List.drop_left, ← String.length_toList, List.take_left]

/-- More text in front moves what stands behind it. -/
theorem append_left (h : StandsAt s cs i) (front : List Char) : StandsAt s (front ++ cs) (front.length + i) := by
  obtain ⟨hne, before, after, rfl, rfl⟩ := h
  exact ⟨hne, front ++ before, after, by simp, by simp⟩

end Text.StandsAt

namespace Token

variable {declared : List String} {inRun : Bool} {pos : Nat} {cs : List Char} {ts : List Token} {t : Token}

/-- A token of a text that starts at position `pos` stands in it, as far behind its start as the position of
the token says. -/
theorem Scans.standsAt (h : Scans declared inRun pos cs ts) (ht : t ∈ ts) :
    Text.StandsAt t.value cs (t.pos - pos) := by
  have hnext : ∀ {c : Char} {cs : List Char} {p : Nat}, Text.StandsAt t.value cs (t.pos - (p + 1 : Nat)) →
      Text.StandsAt t.value (c :: cs) (t.pos - p) := by
    intro c cs p h
    have hmoved := h.append_left [c]
    have hplace : ([c].length : Int) + (t.pos - (p + 1 : Nat)) = t.pos - p := by
      rw [List.length_singleton]
      omega
    rwa [hplace] at hmoved
  induction h with
  | nil => cases ht
  | blank _ _ ih => exact hnext (ih ht)
  | inside _ _ ih => exact hnext (ih ht)
  | @name p c cs _ _ _ _ ih =>
    rcases List.mem_cons.1 ht with rfl | ht
    · refine ⟨by simp, [], cs.dropWhile Text.isLetter, ?_, by simp⟩
      simp [List.takeWhile_append_dropWhile]
    · exact hnext (ih ht)
  | @symbol _ p c cs _ _ _ _ ih =>
    rcases List.mem_cons.1 ht with rfl | ht
    · exact ⟨by simp, [], cs, by simp, by simp⟩
    · exact hnext (ih ht)

/-- The run of letters or the character that offends stands where its fault says. -/
theorem Offends.standsAt {i : Nat} {f : Fault} (h : Offends declared cs i f) :
    ∃ s, f.token = some s ∧ f.position = some (i : Int) ∧ Text.StandsAt s cs i := by
  cases h with
  | @run before run after hne _ _ _ _ =>
    exact ⟨String.ofList run, rfl, rfl, by simpa using hne, before, after, by simp, rfl⟩
  | @character before after c _ _ _ _ _ =>
    exact ⟨String.ofList [c], rfl, rfl, by simp, before, after, by simp, rfl⟩

end Token

end Sentential
