import Mathlib.Data.List.Forall2
import Sentential.Failure

/-!
# Outcomes of several stages

An operation in several stages gives a result exactly if every stage gives one. The first lemmas
take such an operation apart: two stages in a row, and one stage for each entry of a list. An
operation `FailsWith` a class of failures if it fails in no other way, and so does one whose stages
all do; it `Faults` if every failure is a fault of the request.
-/

namespace Sentential.Outcome

variable {α β : Type}

theorem toOption_eq_some_iff {x : Outcome α} {a : α} : x.toOption = some a ↔ x = .ok a := by
  cases x <;> simp [Except.toOption]

theorem exists_eq_ok_of_isSome {x : Outcome α} (h : x.toOption.isSome = true) : ∃ a, x = .ok a := by
  cases x with
  | error e => cases h
  | ok a => exact ⟨a, rfl⟩

theorem exists_eq_error_of_eq_none {x : Outcome α} (h : x.toOption = none) : ∃ e, x = .error e := by
  cases x with
  | error e => exact ⟨e, rfl⟩
  | ok a => cases h

/-- The fault of the request with which an operation ends. -/
def fault? : Outcome α → Option Fault
  | .ok _ => none
  | .error e => match e with
    | .fault f => some f
    | _ => none

theorem fault?_eq_some_iff {x : Outcome α} {f : Fault} : x.fault? = some f ↔ x = .error (.fault f) := by
  cases x with
  | ok a => simp [fault?]
  | error e => cases e <;> simp [fault?]

/-- Two stages in a row give a result exactly if both do. -/
theorem bind_eq_ok_iff {x : Outcome α} {g : α → Outcome β} {b : β} :
    (x >>= g) = .ok b ↔ ∃ a, x = .ok a ∧ g a = .ok b := by
  cases x with
  | error e => simp [bind, Except.bind]
  | ok a => simp [bind, Except.bind]

/-- Of two stages in a row, the first that fails decides the failure. -/
theorem bind_eq_error_iff {x : Outcome α} {g : α → Outcome β} {e : Failure} :
    (x >>= g) = .error e ↔ x = .error e ∨ ∃ a, x = .ok a ∧ g a = .error e := by
  cases x with
  | error e => simp [bind, Except.bind]
  | ok a => simp [bind, Except.bind]

/-- A run over a list starts with its first entry. -/
theorem foldlM_cons_eq_ok_iff {g : β → α → Outcome β} {x : α} {xs : List α} {b c : β} :
    (x :: xs).foldlM g b = .ok c ↔ ∃ b', g b x = .ok b' ∧ xs.foldlM g b' = .ok c := by
  rw [List.foldlM_cons, bind_eq_ok_iff]

/-- A run over two lists goes over one after the other. -/
theorem foldlM_append_eq_ok_iff {g : β → α → Outcome β} {xs ys : List α} {b c : β} :
    (xs ++ ys).foldlM g b = .ok c ↔ ∃ b', xs.foldlM g b = .ok b' ∧ ys.foldlM g b' = .ok c := by
  rw [List.foldlM_append, bind_eq_ok_iff]

/-- A run that fails does so at one of its entries, after it went over those before. -/
theorem exists_of_foldlM_eq_error {g : β → α → Outcome β} {xs : List α} {b : β} {e : Failure}
    (h : xs.foldlM g b = .error e) :
    ∃ ys x zs b', xs = ys ++ x :: zs ∧ ys.foldlM g b = .ok b' ∧ g b' x = .error e := by
  induction xs generalizing b with
  | nil => cases h
  | cons x xs ih =>
    rw [List.foldlM_cons] at h
    rcases bind_eq_error_iff.1 h with h | ⟨b', hb', h⟩
    · exact ⟨[], x, xs, b, rfl, rfl, h⟩
    · obtain ⟨ys, y, zs, b'', rfl, hys, hfail⟩ := ih h
      exact ⟨x :: ys, y, zs, b'', rfl, foldlM_cons_eq_ok_iff.2 ⟨b', hb', hys⟩, hfail⟩

/-- A result passed through a function is a result. -/
theorem map_eq_ok_iff {x : Outcome α} {g : α → β} {b : β} :
    g <$> x = .ok b ↔ ∃ a, x = .ok a ∧ g a = b := by
  cases x with
  | error e => simp [Functor.map, Except.map]
  | ok a => simp [Functor.map, Except.map]

/-- One stage for each entry gives a list of results, entry by entry. -/
theorem mapM_eq_ok_iff {g : α → Outcome β} {xs : List α} {ys : List β} :
    xs.mapM g = .ok ys ↔ List.Forall₂ (fun x y => g x = .ok y) xs ys := by
  induction xs generalizing ys with
  | nil =>
    rw [List.mapM_nil, List.forall₂_nil_left_iff]
    exact ⟨fun h => (Except.ok.inj h).symm, fun h => h ▸ rfl⟩
  | cons x xs ih =>
    rw [List.mapM_cons, bind_eq_ok_iff]
    constructor
    · rintro ⟨y, hy, h⟩
      obtain ⟨zs, hzs, h⟩ := bind_eq_ok_iff.1 h
      cases h
      exact .cons hy (ih.1 hzs)
    · rintro (_ | ⟨hy, h⟩)
      exact ⟨_, hy, bind_eq_ok_iff.2 ⟨_, ih.2 h, rfl⟩⟩

/-- One stage for each entry fails with the first entry that has no result. -/
theorem mapM_cons_eq_error_iff {g : α → Outcome β} {x : α} {xs : List α} {e : Failure} :
    (x :: xs).mapM g = .error e ↔ g x = .error e ∨ ∃ y, g x = .ok y ∧ xs.mapM g = .error e := by
  rw [List.mapM_cons, bind_eq_error_iff]
  refine or_congr_right (exists_congr fun y => and_congr_right fun _ => ?_)
  rw [bind_eq_error_iff]
  constructor
  · rintro (h | ⟨ys, _, h⟩)
    · exact h
    · cases h
  · exact .inl

/-- A stage that fails on a list fails on an entry. -/
theorem exists_of_mapM_eq_error {g : α → Outcome β} {xs : List α} {e : Failure} (h : xs.mapM g = .error e) :
    ∃ x ∈ xs, g x = .error e := by
  induction xs with
  | nil => cases h
  | cons x xs ih =>
    rcases mapM_cons_eq_error_iff.1 h with h | ⟨_, _, h⟩
    · exact ⟨x, List.mem_cons_self, h⟩
    · obtain ⟨y, hy, hg⟩ := ih h
      exact ⟨y, List.mem_cons_of_mem _ hy, hg⟩

/-- A stage that gives a result for each entry gives the list of these results. -/
theorem mapM_eq_ok_map {g : α → Outcome β} {k : α → β} {xs : List α} (h : ∀ x ∈ xs, g x = .ok (k x)) :
    xs.mapM g = .ok (xs.map k) := by
  rw [mapM_eq_ok_iff, List.forall₂_map_right_iff, List.forall₂_same]
  exact h

/-- If every entry has a result, so has the list. -/
theorem exists_mapM_eq_ok {g : α → Outcome β} {xs : List α} (h : ∀ x ∈ xs, ∃ y, g x = .ok y) :
    ∃ ys, xs.mapM g = .ok ys := by
  induction xs with
  | nil => exact ⟨[], rfl⟩
  | cons x xs ih =>
    obtain ⟨y, hy⟩ := h x List.mem_cons_self
    obtain ⟨ys, hys⟩ := ih fun z hz => h z (List.mem_cons_of_mem _ hz)
    exact ⟨y :: ys, mapM_eq_ok_iff.2 (.cons hy (mapM_eq_ok_iff.1 hys))⟩

/-- Each result comes from an entry. -/
theorem exists_of_mem_mapM {g : α → Outcome β} {xs : List α} {ys : List β}
    (h : xs.mapM g = .ok ys) {y : β} (hy : y ∈ ys) : ∃ x ∈ xs, g x = .ok y := by
  rw [mapM_eq_ok_iff] at h
  induction h with
  | nil => cases hy
  | cons hxy _ ih =>
    rcases List.mem_cons.1 hy with rfl | hy
    · exact ⟨_, List.mem_cons_self, hxy⟩
    · obtain ⟨x, hx, hg⟩ := ih hy
      exact ⟨x, List.mem_cons_of_mem _ hx, hg⟩

/-- Each entry has a result. -/
theorem exists_mem_of_mapM {g : α → Outcome β} {xs : List α} {ys : List β}
    (h : xs.mapM g = .ok ys) {x : α} (hx : x ∈ xs) : ∃ y ∈ ys, g x = .ok y := by
  rw [mapM_eq_ok_iff] at h
  induction h with
  | nil => cases hx
  | cons hxy _ ih =>
    rcases List.mem_cons.1 hx with rfl | hx
    · exact ⟨_, List.mem_cons_self, hxy⟩
    · obtain ⟨y, hy, hg⟩ := ih hx
      exact ⟨y, List.mem_cons_of_mem _ hy, hg⟩

/-- If the operation fails, it does so in one of these ways. -/
def FailsWith (P : Failure → Prop) (x : Outcome α) : Prop := ∀ e, x = .error e → P e

namespace FailsWith

variable {P : Failure → Prop}

theorem ok (a : α) : FailsWith P (.ok a) := by
  intro e h
  cases h

theorem error {e : Failure} (he : P e) : FailsWith P (.error e : Outcome α) := by
  intro e' h
  cases h
  exact he

theorem bind {x : Outcome α} {g : α → Outcome β} (hx : FailsWith P x) (hg : ∀ a, x = .ok a → FailsWith P (g a)) :
    FailsWith P (x >>= g) := by
  intro e h
  rcases bind_eq_error_iff.1 h with h | ⟨a, ha, h⟩
  · exact hx e h
  · exact hg a ha e h

theorem map {x : Outcome α} {g : α → β} (hx : FailsWith P x) : FailsWith P (g <$> x) := by
  intro e h
  cases x with
  | ok a => cases h
  | error e' => exact hx e (congrArg Except.error (Except.error.inj h))

theorem foldlM {g : β → α → Outcome β} {xs : List α} (hg : ∀ x ∈ xs, ∀ b, FailsWith P (g b x)) (b : β) :
    FailsWith P (xs.foldlM g b) := by
  induction xs generalizing b with
  | nil => exact ok b
  | cons x xs ih =>
    rw [List.foldlM_cons]
    refine bind (hg x List.mem_cons_self b) fun b' _ => ?_
    exact ih (fun y hy => hg y (List.mem_cons_of_mem _ hy)) b'

end FailsWith

/-- If the operation fails, it does so by a fault of the request. -/
def Faults (x : Outcome α) : Prop := ∀ e, x = .error e → ∃ f : Fault, e = .fault f

namespace Faults

theorem ok (a : α) : Faults (.ok a) := FailsWith.ok a

theorem error (f : Fault) : Faults (.error (.fault f) : Outcome α) := FailsWith.error ⟨f, rfl⟩

theorem bind {x : Outcome α} {g : α → Outcome β} (hx : Faults x) (hg : ∀ a, x = .ok a → Faults (g a)) :
    Faults (x >>= g) := FailsWith.bind hx hg

theorem map {x : Outcome α} {g : α → β} (hx : Faults x) : Faults (g <$> x) := FailsWith.map hx

theorem foldlM {g : β → α → Outcome β} {xs : List α} (hg : ∀ x ∈ xs, ∀ b, Faults (g b x)) (b : β) :
    Faults (xs.foldlM g b) := FailsWith.foldlM hg b

end Faults

end Sentential.Outcome
