import Sentential.Proofs.Circuit.Levels

/-!
# A queue instead of a sweep

`Visits` takes the references one by one from a queue: no gate is remembered as seen, so a gate that is
referred to often is queued often, and each time it takes the level of that reference. The levels in the queue
never decrease, and those of one level are the gates of one step of a sweep, with repetitions
(`Visits.level`). What a sweep drops as a repetition would only have put the same level again
(`Thinned.moved_eq`) and queued the same gates again (`Thinned.feedersOf_eq`). So the queue comes to an end
wherever a sweep does not run out of fuel, and with the same outcome (`visits_of_sweep`).
-/

namespace Sentential.Circuit

variable {c : Circuit} {seen ids ids' next : List String} {id : String} {gates : List Gate}
  {fuel n : Nat} {queue levels : List (String × Nat)} {o o' : Outcome (List (String × Nat))} {e : Failure}

/-- The queue runs to an outcome, from the levels so far: the gate in front takes the level it is queued with,
whatever it had before, and all that feeds it goes to the end, one level deeper. A missing gate ends the run. -/
inductive Visits (c : Circuit) :
    List (String × Nat) → List (String × Nat) → Outcome (List (String × Nat)) → Prop
  | done {levels : List (String × Nat)} : Visits c [] levels (.ok levels)
  | missing {id : String} {level : Nat} {queue levels : List (String × Nat)} {e : Failure}
      (h : c.lastGate id = .error e) : Visits c ((id, level) :: queue) levels (.error e)
  | gate {id : String} {level : Nat} {queue levels : List (String × Nat)} {g : Gate}
      {o : Outcome (List (String × Nat))} (h : c.lastGate id = .ok g)
      (hrest : Visits c (queue ++ g.feeders.map (·, level + 1)) (Record.put levels id level) o) :
      Visits c ((id, level) :: queue) levels o

/-- A run has one outcome. -/
theorem Visits.unique (h : Visits c queue levels o) (h' : Visits c queue levels o') : o = o' := by
  induction h with
  | done =>
    cases h'
    rfl
  | missing h =>
    cases h' with
    | missing h' =>
      rw [h] at h'
      rw [Except.error.inj h']
    | gate h' _ => cases h.symm.trans h'
  | gate h _ ih =>
    cases h' with
    | missing h' => cases h.symm.trans h'
    | gate h' hrest' =>
      cases h.symm.trans h'
      exact ih hrest'

/-! ## One level of the queue -/

/-- The gates of one level leave the queue, and what feeds them stands behind. -/
theorem Visits.level (next : List String) (hgates : ids.mapM c.lastGate = .ok gates)
    (h : Visits c ((next ++ gates.flatMap Gate.feeders).map (·, n + 1)) (moved levels ids n) o) :
    Visits c (ids.map (·, n) ++ next.map (·, n + 1)) levels o := by
  rw [Outcome.mapM_eq_ok_iff] at hgates
  induction hgates generalizing next levels with
  | nil => simpa [moved] using h
  | cons hg _ ih =>
    refine .gate hg ?_
    rw [List.append_eq, List.append_assoc, ← List.map_append]
    refine ih _ ?_
    rwa [List.append_assoc]

/-- The first gate of a level that is missing ends the run. -/
theorem Visits.of_mapM_error (h : ids.mapM c.lastGate = .error e) :
    Visits c (ids.map (·, n) ++ queue) levels (.error e) := by
  induction ids generalizing queue levels with
  | nil => cases h
  | cons id ids ih =>
    rcases Outcome.mapM_cons_eq_error_iff.1 h with h | ⟨g, hg, h⟩
    · exact .missing h
    · refine .gate hg ?_
      rw [List.append_eq, List.append_assoc]
      exact ih h

/-! ## Repetitions -/

/-- The second list is the first one without some of the entries that were seen before. -/
inductive Thinned : List String → List String → List String → Prop
  | nil {seen : List String} : Thinned seen [] []
  | keep {seen ids ids' : List String} {id : String} (h : Thinned (id :: seen) ids ids') :
      Thinned seen (id :: ids) (id :: ids')
  | drop {seen ids ids' : List String} {id : String} (hseen : id ∈ seen) (h : Thinned seen ids ids') :
      Thinned seen (id :: ids) ids'

theorem Thinned.filter_eraseDups (seen ids : List String) :
    Thinned seen ids (ids.filter fun i => !seen.contains i).eraseDups := by
  induction ids generalizing seen with
  | nil => exact .nil
  | cons id ids ih =>
    by_cases hseen : id ∈ seen
    · rw [List.filter_cons_of_neg (by simpa using hseen)]
      exact .drop hseen (ih seen)
    · rw [List.filter_cons_of_pos (by simpa using hseen), List.eraseDups_cons, List.filter_filter]
      refine .keep ?_
      simpa only [List.contains_cons, Bool.not_or] using ih (id :: seen)

theorem Thinned.eraseDups (ids : List String) : Thinned [] ids ids.eraseDups := by
  simpa using filter_eraseDups [] ids

/-- A gate that has the level need not be moved there again. -/
theorem Thinned.moved_eq (h : Thinned seen ids ids') (hseen : ∀ i ∈ seen, levels.lookup i = some n) :
    moved levels ids n = moved levels ids' n := by
  induction h generalizing levels with
  | nil => rfl
  | keep _ ih =>
    refine ih fun i hi => ?_
    rw [Record.lookup_put]
    split
    next => rfl
    next hne => exact hseen i ((List.mem_cons.1 hi).resolve_left (by simpa using hne))
  | drop hmem _ ih =>
    rw [moved, List.foldl_cons, Record.put_eq_self (hseen _ hmem)]
    exact ih hseen

/-- A part that stands in front already leaves nothing. -/
theorem eraseDups_append_of_subset {front part rest : List String} (h : part ⊆ front) :
    (front ++ (part ++ rest)).eraseDups = (front ++ rest).eraseDups := by
  have hnone : part.removeAll front = [] := by
    rw [List.removeAll, List.filter_eq_nil_iff]
    intro i hi
    simpa using h hi
  have hsplit : (part ++ rest).removeAll front = part.removeAll front ++ rest.removeAll front :=
    List.filter_append ..
  rw [List.eraseDups_append, List.eraseDups_append, hsplit, hnone, List.nil_append]

theorem map_mapM_cons {α : Type} {g : Gate} (F : List Gate → α) (h : c.lastGate id = .ok g) :
    F <$> (id :: ids).mapM c.lastGate = (fun gates => F (g :: gates)) <$> ids.mapM c.lastGate := by
  rw [List.mapM_cons, h]
  cases ids.mapM c.lastGate <;> rfl

/-- What feeds a gate a second time is a repetition. -/
theorem Thinned.map_mapM_eq {front : List String} (h : Thinned seen ids ids')
    (hseen : ∀ i ∈ seen, ∃ g, c.lastGate i = .ok g ∧ g.feeders ⊆ front) :
    (fun gates => (front ++ gates.flatMap Gate.feeders).eraseDups) <$> ids.mapM c.lastGate =
      (fun gates => (front ++ gates.flatMap Gate.feeders).eraseDups) <$> ids'.mapM c.lastGate := by
  induction h generalizing front with
  | nil => rfl
  | @keep seen ids ids' id _ ih =>
    cases hg : c.lastGate id with
    | error e => rw [List.mapM_cons, List.mapM_cons, hg]; rfl
    | ok g =>
      have hfront : ∀ i ∈ id :: seen, ∃ g', c.lastGate i = .ok g' ∧ g'.feeders ⊆ front ++ g.feeders := by
        rw [List.forall_mem_cons]
        refine ⟨⟨g, hg, List.subset_append_right _ _⟩, fun i hi => ?_⟩
        obtain ⟨g', hg', hsub⟩ := hseen i hi
        exact ⟨g', hg', List.subset_append_of_subset_left _ hsub⟩
      rw [map_mapM_cons _ hg, map_mapM_cons _ hg]
      simpa only [List.flatMap_cons, List.append_assoc] using ih hfront
  | @drop seen ids ids' id hmem _ ih =>
    obtain ⟨g, hg, hsub⟩ := hseen _ hmem
    simp only [map_mapM_cons _ hg, ← ih hseen, List.flatMap_cons, eraseDups_append_of_subset hsub]

theorem Thinned.feedersOf_eq (h : Thinned [] ids ids') : c.feedersOf ids = c.feedersOf ids' := by
  have hmap (ids : List String) :
      c.feedersOf ids = (fun gates => ([] ++ gates.flatMap Gate.feeders).eraseDups) <$> ids.mapM c.lastGate := by
    rw [feedersOf]
    cases ids.mapM c.lastGate <;> rfl
  rw [hmap, hmap, h.map_mapM_eq (by simp)]

/-! ## Agreement -/

theorem sweep_cons : c.sweep (fuel + 1) n (id :: ids) levels =
    c.feedersOf (id :: ids) >>= fun next => c.sweep fuel (n + 1) next (moved levels (id :: ids) n) := rfl

/-- Where a sweep does not run out of fuel, the queue has the same outcome. -/
theorem visits_of_sweep (hthinned : Thinned [] ids ids') (h : c.sweep fuel n ids' levels = o)
    (hcyclic : o ≠ .error .cyclic) : Visits c (ids.map (·, n)) levels o := by
  induction fuel generalizing n ids ids' levels with
  | zero =>
    cases hthinned with
    | nil => exact h ▸ .done
    | keep _ => exact absurd h.symm hcyclic
    | drop hseen _ => cases hseen
  | succ fuel ih =>
    cases hthinned with
    | nil => exact h ▸ .done
    | drop hseen _ => cases hseen
    | @keep _ ids ids' id hrest =>
      have hthinned : Thinned [] (id :: ids) (id :: ids') := .keep hrest
      rw [sweep_cons, ← hthinned.feedersOf_eq, ← hthinned.moved_eq (by simp), feedersOf] at h
      rw [← List.append_nil (List.map _ _)]
      cases hgates : (id :: ids).mapM c.lastGate with
      | error e =>
        rw [hgates] at h
        cases h
        exact .of_mapM_error hgates
      | ok gates =>
        rw [hgates] at h
        exact .level [] hgates (ih (Thinned.eraseDups _) h)

/-- A queue that starts at the gate of the output has the levels as its outcome, unless a sweep runs out of
fuel. -/
theorem visits_levels (h : c.levels ≠ .error .cyclic) :
    Visits c (c.output.gate?.toList.map (·, 0)) [] c.levels := by
  have hstart : Thinned [] c.output.gate?.toList c.output.gate?.toList := by
    cases c.output.gate? with
    | none => exact .nil
    | some id => exact .keep .nil
  exact visits_of_sweep hstart rfl h

end Sentential.Circuit
