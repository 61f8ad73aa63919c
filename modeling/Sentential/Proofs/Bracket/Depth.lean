import Sentential.Bracket
import Sentential.Token

/-!
# Depth of nesting

Whether brackets balance depends on their sides only, in the order in which they occur. `depth`
counts how many of them are open and fails where one closes with none open. It makes the scan
for the break of balance (`firstUnbalanced_eq_none_iff`) and the inductive `Balanced`
(`Balanced.depth_eq`) comparable, and since it reads sides it serves tokens as well as characters.
-/

namespace Sentential.Bracket

/-- The two sides of a pair of brackets. -/
inductive Side where
  | opening
  | closing
  deriving DecidableEq, Repr

/-- The side of a character that is a bracket. -/
def side? (c : Char) : Option Side :=
  if isOpening c then some .opening else if isClosing c then some .closing else none

/-- The sides of the brackets of a text. -/
def sides (cs : List Char) : List Side := cs.filterMap side?

/-- The sides of the parentheses among tokens. -/
def sidesOfTokens (ts : List Token) : List Side :=
  ts.filterMap fun t =>
    match t.kind with
    | .opening => some .opening
    | .closing => some .closing
    | _ => none

/-- The number of open brackets after the given ones, if `d` are open before them and each one that
closes finds one open. -/
def depth (d : Nat) : List Side → Option Nat
  | [] => some d
  | .opening :: s => depth (d + 1) s
  | .closing :: s =>
    match d with
    | 0 => none
    | d + 1 => depth d s

theorem isOpening_iff {c : Char} : isOpening c = true ↔ c = '(' ∨ c = '{' := by
  simp [isOpening]

theorem isClosing_iff {c : Char} : isClosing c = true ↔ c = ')' ∨ c = '}' := by
  simp [isClosing]

theorem side?_of_isOpening {c : Char} (h : isOpening c = true) : side? c = some .opening := by
  rw [side?, if_pos h]

theorem side?_of_isClosing {c : Char} (h : isClosing c = true) : side? c = some .closing := by
  rcases isClosing_iff.1 h with rfl | rfl <;> rfl

theorem side?_eq_none_iff {c : Char} : side? c = none ↔ isOpening c = false ∧ isClosing c = false := by
  unfold side?
  cases isOpening c <;> cases isClosing c <;> simp

/-- A class of characters without the four brackets holds no bracket. -/
theorem side?_eq_none_of_class {p : Char → Bool} (hp : ['(', '{', ')', '}'].all (!p ·) = true) {c : Char}
    (h : p c = true) : side? c = none := by
  simp only [List.all_cons, List.all_nil, Bool.and_true, Bool.and_eq_true, Bool.not_eq_true'] at hp
  rw [side?_eq_none_iff, ← Bool.not_eq_true, ← Bool.not_eq_true, isOpening_iff, isClosing_iff]
  refine ⟨?_, ?_⟩
  · rintro (rfl | rfl) <;> simp [hp] at h
  · rintro (rfl | rfl) <;> simp [hp] at h

theorem sides_cons_of_isOpening {c : Char} (h : isOpening c = true) (cs : List Char) :
    sides (c :: cs) = .opening :: sides cs :=
  List.filterMap_cons_some (side?_of_isOpening h)

theorem sides_cons_of_isClosing {c : Char} (h : isClosing c = true) (cs : List Char) :
    sides (c :: cs) = .closing :: sides cs :=
  List.filterMap_cons_some (side?_of_isClosing h)

theorem sides_cons_of_plain {c : Char} (h : side? c = none) (cs : List Char) : sides (c :: cs) = sides cs :=
  List.filterMap_cons_none h

@[simp] theorem sides_append (xs ys : List Char) : sides (xs ++ ys) = sides xs ++ sides ys :=
  List.filterMap_append

@[simp] theorem sidesOfTokens_append (ts us : List Token) :
    sidesOfTokens (ts ++ us) = sidesOfTokens ts ++ sidesOfTokens us :=
  List.filterMap_append

theorem sidesOfTokens_cons_of_opening {t : Token} (h : t.kind = .opening) (ts : List Token) :
    sidesOfTokens (t :: ts) = .opening :: sidesOfTokens ts :=
  List.filterMap_cons_some (by rw [h])

theorem sidesOfTokens_cons_of_closing {t : Token} (h : t.kind = .closing) (ts : List Token) :
    sidesOfTokens (t :: ts) = .closing :: sidesOfTokens ts :=
  List.filterMap_cons_some (by rw [h])

theorem sidesOfTokens_cons_of_plain {t : Token} (h : t.kind = .name ∨ t.kind = .operator) (ts : List Token) :
    sidesOfTokens (t :: ts) = sidesOfTokens ts := by
  refine List.filterMap_cons_none ?_
  rcases h with h | h <;> rw [h]

/-- The depth after two stretches is counted through the first one. -/
theorem depth_append (d : Nat) (s t : List Side) : depth d (s ++ t) = (depth d s).bind (depth · t) := by
  induction s generalizing d with
  | nil => rfl
  | cons b s ih =>
    cases b with
    | opening => exact ih (d + 1)
    | closing =>
      cases d with
      | zero => rfl
      | succ d => exact ih d

/-- Brackets that are open all the way through do not matter. -/
theorem depth_add {d e : Nat} {s : List Side} (h : depth d s = some e) (k : Nat) :
    depth (d + k) s = some (e + k) := by
  induction s generalizing d with
  | nil => cases h; rfl
  | cons b s ih =>
    cases b with
    | opening =>
      rw [depth, Nat.add_right_comm]
      exact ih h
    | closing =>
      cases d with
      | zero => cases h
      | succ d =>
        rw [Nat.add_right_comm]
        exact ih h

/-- A stretch that leaves nothing open leaves the depth as it is. -/
theorem depth_of_depth_zero {s : List Side} (h : depth 0 s = some 0) (d : Nat) : depth d s = some d := by
  simpa using depth_add h d

/-- A bracket that closes after balanced ones finds none open. -/
theorem depth_append_closing {s : List Side} (h : depth 0 s = some 0) (t : List Side) :
    depth 0 (s ++ .closing :: t) = none := by
  rw [depth_append, h]
  rfl

/-- A bracket that opens in front of a part of balanced ones stays open through the part. -/
theorem depth_append_opening_ne {r s t : List Side} (h : depth 0 (s ++ t) = some 0) :
    depth 0 (r ++ .opening :: s) ≠ some 0 := by
  intro hopen
  rw [depth_append] at h hopen
  obtain ⟨d, hd, _⟩ := Option.bind_eq_some_iff.1 h
  obtain ⟨e, _, he⟩ := Option.bind_eq_some_iff.1 hopen
  have hadd : depth (e + 1) s = some (d + (e + 1)) := by simpa using depth_add hd (e + 1)
  have hzero : some (d + (e + 1)) = some 0 := hadd.symm.trans he
  cases hzero

theorem Balanced.append {xs ys : List Char} (hx : Balanced xs) (hy : Balanced ys) :
    Balanced (xs ++ ys) := by
  induction hx with
  | nil => exact hy
  | plain ho hc _ ih => exact .plain ho hc ih
  | group ho hi hc _ _ ihr =>
    rw [List.cons_append, List.append_assoc, List.cons_append]
    exact .group ho hi hc ihr

/-- A balanced text leaves nothing open. -/
theorem Balanced.depth_eq {cs : List Char} (h : Balanced cs) : depth 0 (sides cs) = some 0 := by
  induction h with
  | nil => rfl
  | plain ho hc _ ih => rwa [sides_cons_of_plain (side?_eq_none_iff.2 ⟨ho, hc⟩)]
  | group ho _ hc _ ihi ihr =>
    rw [sides_cons_of_isOpening ho, sides_append, sides_cons_of_isClosing hc, depth, depth_append,
      depth_of_depth_zero ihi]
    exact ihr

/-- The scan finds no break exactly if it ends with nothing open. -/
theorem firstUnbalancedFrom_eq_none_iff {pos : Nat} {opened : List Nat} {cs : List Char} :
    firstUnbalancedFrom pos opened cs = none ↔ depth opened.length (sides cs) = some 0 := by
  induction cs generalizing pos opened with
  | nil => simp [firstUnbalancedFrom, sides, depth]
  | cons c cs ih =>
    unfold firstUnbalancedFrom
    split
    next ho =>
      rw [ih, sides_cons_of_isOpening ho]
      rfl
    next ho =>
      split
      next hc =>
        rw [sides_cons_of_isClosing hc]
        cases opened with
        | nil => simp [depth]
        | cons i opened => exact ih
      next hc =>
        have hplain : side? c = none := side?_eq_none_iff.2 ⟨by simpa using ho, by simpa using hc⟩
        rw [ih, sides_cons_of_plain hplain]

/-- The scan finds no break exactly if every bracket has its partner. -/
theorem firstUnbalanced_eq_none_iff {cs : List Char} :
    firstUnbalanced cs = none ↔ depth 0 (sides cs) = some 0 :=
  firstUnbalancedFrom_eq_none_iff

end Sentential.Bracket
