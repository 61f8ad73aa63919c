/-!
# Records in order of first arrival

A record is a list of keys with their values. A new key goes to the end, and a key that is
present keeps its place and takes the new value.
-/

namespace Sentential.Record

variable {α β : Type} [BEq α]

/-- The record with the value `v` under the key `k`. -/
def put : List (α × β) → α → β → List (α × β)
  | [], k, v => [(k, v)]
  | (k', v') :: rest, k, v => if k == k' then (k', v) :: rest else (k', v') :: put rest k v

/-- The record with all entries of a list put one after the other. -/
def ofList (entries : List (α × β)) : List (α × β) := entries.foldl (fun r e => put r e.1 e.2) []

/-- A key that is absent goes to the end. -/
theorem put_of_not_mem [LawfulBEq α] {r : List (α × β)} {k : α} (v : β) (h : k ∉ r.map Prod.fst) :
    put r k v = r ++ [(k, v)] := by
  induction r with
  | nil => rfl
  | cons e rest ih =>
    simp only [List.map_cons, List.mem_cons, not_or] at h
    simp [put, h.1, ih h.2]

/-- Putting a value changes the look-up of its key only. -/
theorem lookup_put [LawfulBEq α] (r : List (α × β)) (k : α) (v : β) (j : α) :
    (put r k v).lookup j = if j == k then some v else r.lookup j := by
  induction r with
  | nil => cases h : j == k <;> simp [put, List.lookup_cons, h]
  | cons e rest ih =>
    obtain ⟨k', v'⟩ := e
    cases hk : k == k' with
    | true =>
      obtain rfl := eq_of_beq hk
      cases hj : j == k <;> simp [put, List.lookup_cons, hj]
    | false =>
      cases hj : j == k' with
      | true =>
        obtain rfl := eq_of_beq hj
        have hs : (j == k) = false := BEq.comm.trans hk
        simp [put, hk, hs]
      | false => simp [put, hk, List.lookup_cons, hj, ih]

/-- Putting the value that a key has changes nothing. -/
theorem put_eq_self [LawfulBEq α] {r : List (α × β)} {k : α} {v : β} (h : r.lookup k = some v) : put r k v = r := by
  induction r with
  | nil => cases h
  | cons e rest ih =>
    obtain ⟨k', v'⟩ := e
    rw [List.lookup_cons] at h
    cases hk : k == k' with
    | true =>
      rw [hk] at h
      simp [put, hk, Option.some.inj h]
    | false =>
      rw [hk] at h
      simp [put, hk, ih h]

/-- A key that is present keeps its place. -/
theorem keys_put_of_mem [LawfulBEq α] {r : List (α × β)} {k : α} (v : β) (h : k ∈ r.map Prod.fst) :
    (put r k v).map Prod.fst = r.map Prod.fst := by
  induction r with
  | nil => cases h
  | cons e rest ih =>
    obtain ⟨k', v'⟩ := e
    cases hk : k == k' with
    | true => simp [put, hk]
    | false =>
      have hne : k ≠ k' := by simpa using hk
      simp only [List.map_cons, List.mem_cons] at h
      simp [put, hk, ih (h.resolve_left hne)]

/-- No key stands twice in a record. -/
theorem nodup_keys_put [LawfulBEq α] {r : List (α × β)} (k : α) (v : β) (h : (r.map Prod.fst).Nodup) :
    ((put r k v).map Prod.fst).Nodup := by
  by_cases hk : k ∈ r.map Prod.fst
  · rwa [keys_put_of_mem v hk]
  · rw [put_of_not_mem v hk, List.map_append, List.nodup_append]
    refine ⟨h, by simp, fun j hj i hi heq => ?_⟩
    obtain rfl : i = k := by simpa using hi
    exact hk (heq ▸ hj)

/-- The keys of a record are what a look-up finds a value for. -/
theorem mem_keys_iff [LawfulBEq α] {r : List (α × β)} {k : α} :
    k ∈ r.map Prod.fst ↔ ∃ v, r.lookup k = some v := by
  induction r with
  | nil => simp
  | cons e rest ih =>
    obtain ⟨k', v'⟩ := e
    cases hk : k == k' with
    | true => simp [eq_of_beq hk]
    | false =>
      have hne : k ≠ k' := by simpa using hk
      simp [List.lookup_cons, hk, hne, ← ih]

end Sentential.Record
