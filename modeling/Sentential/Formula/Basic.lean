import Sentential.Operator

/-!
# Formulas

A formula is a variable, a negation, or two formulas under a binary connective. Its text
puts parentheses around every operand that is itself a binary formula and around nothing
else, so that reading the text never depends on precedence.
-/

namespace Sentential

/-- A propositional formula. -/
inductive Formula where
  | var (name : String)
  | not (operand : Formula)
  | binary (op : Connective) (left right : Formula)
  deriving DecidableEq, Repr

namespace Formula

/-- The formula joins two operands. -/
def isBinary : Formula → Bool
  | binary .. => true
  | _ => false

/-- The text `cs` of the operand `f`, in parentheses if `f` is binary. -/
def wrapped (f : Formula) (cs : List Char) : List Char := if f.isBinary then '(' :: cs ++ [')'] else cs

/-- The characters of a formula's text. -/
def chars : Formula → List Char
  | var name => name.toList
  | not a => Operator.not.symbol :: a.wrapped a.chars
  | binary op l r => l.wrapped l.chars ++ op.symbol :: r.wrapped r.chars

/-- The text of a formula. -/
def text (f : Formula) : String := String.ofList f.chars

/-- The number of connectives on the longest path to a variable. -/
def depth : Formula → Nat
  | var _ => 0
  | not a => 1 + a.depth
  | binary _ l r => 1 + max l.depth r.depth

/-- The variables from left to right, with repetitions. -/
def leaves : Formula → List String
  | var name => [name]
  | not a => a.leaves
  | binary _ l r => l.leaves ++ r.leaves

/-- The variables that occur, each once, in the order of their code points. -/
def atoms (f : Formula) : List String := f.leaves.eraseDups.mergeSort fun a b => decide (a ≤ b)

/-- `g` occurs in the formula as a whole operand, or is the formula. -/
inductive Subformula (g : Formula) : Formula → Prop
  | refl : Subformula g g
  | not {a : Formula} (h : Subformula g a) : Subformula g (Formula.not a)
  | left {op : Connective} {l r : Formula} (h : Subformula g l) : Subformula g (binary op l r)
  | right {op : Connective} {l r : Formula} (h : Subformula g r) : Subformula g (binary op l r)

@[simp] theorem subformula_var_iff {g : Formula} {name : String} :
    Subformula g (var name) ↔ g = var name :=
  ⟨fun h => by cases h; rfl, fun h => h ▸ .refl⟩

@[simp] theorem subformula_not_iff {g a : Formula} :
    Subformula g (not a) ↔ g = not a ∨ Subformula g a := by
  constructor
  · intro h
    cases h with
    | refl => exact .inl rfl
    | not h => exact .inr h
  · rintro (rfl | h)
    · exact .refl
    · exact .not h

@[simp] theorem subformula_binary_iff {g l r : Formula} {op : Connective} :
    Subformula g (binary op l r) ↔ g = binary op l r ∨ Subformula g l ∨ Subformula g r := by
  constructor
  · intro h
    cases h with
    | refl => exact .inl rfl
    | left h => exact .inr (.inl h)
    | right h => exact .inr (.inr h)
  · rintro (rfl | h | h)
    · exact .refl
    · exact .left h
    · exact .right h

/-- The formula with `g` in place of every occurrence of the variable `x`. -/
def substitute : Formula → String → Formula → Formula
  | var name, x, g => if name = x then g else var name
  | not a, x, g => not (a.substitute x g)
  | binary op l r, x, g => binary op (l.substitute x g) (r.substitute x g)

/-- Nothing is replaced in a formula without the variable. -/
theorem substitute_eq_self {f g : Formula} {x : String} (h : x ∉ f.leaves) : f.substitute x g = f := by
  induction f with
  | var name =>
    rw [leaves, List.mem_singleton] at h
    exact if_neg (Ne.symm h)
  | not a ih => exact congrArg Formula.not (ih h)
  | binary op l r ihl ihr =>
    rw [leaves, List.mem_append, not_or] at h
    rw [substitute, ihl h.1, ihr h.2]

end Formula

end Sentential
