/-!
# Operators

A formula is built with negation and five binary connectives. `Connective` holds the
binary ones, so that a binary node cannot carry a negation. `Operator` adds the
negation: it is what an operator token stands for. The canonical alphabet is
`¬ ∧ ∨ △ → ↔`, one character each.

Negation binds tightest, then conjunction, then disjunction and exclusive or on one
level, then the conditional and the biconditional on one level. Of the binary
connectives only the conditional groups to the right.
-/

namespace Sentential

/-- A binary connective. -/
inductive Connective where
  | and
  | or
  | xor
  | implies
  | iff
  deriving DecidableEq, Repr

namespace Connective

/-- The canonical symbol. -/
def symbol : Connective → Char
  | and => '∧'
  | or => '∨'
  | xor => '△'
  | implies => '→'
  | iff => '↔'

/-- The name under which trees and messages show the connective. -/
def name : Connective → String
  | and => "AND"
  | or => "OR"
  | xor => "XOR"
  | implies => "IMPLIES"
  | iff => "IFF"

/-- How tightly the connective binds; a larger number binds tighter. -/
def precedence : Connective → Nat
  | and => 3
  | or => 2
  | xor => 2
  | implies => 1
  | iff => 1

/-- A chain of a left-associative connective groups from the left. -/
def leftAssoc : Connective → Bool
  | implies => false
  | _ => true

/-- The truth function. -/
def apply : Connective → Bool → Bool → Bool
  | and, a, b => a && b
  | or, a, b => a || b
  | xor, a, b => a != b
  | implies, a, b => !a || b
  | iff, a, b => a == b

/-- All binary connectives, in the order of the operator table. -/
def all : List Connective := [and, or, xor, implies, iff]

theorem mem_all (c : Connective) : c ∈ all := by cases c <;> decide

end Connective

/-- An operator of the canonical alphabet: the negation or a binary connective. -/
inductive Operator where
  | not
  | binary (c : Connective)
  deriving DecidableEq, Repr

namespace Operator

/-- The canonical symbol. -/
def symbol : Operator → Char
  | not => '¬'
  | binary c => c.symbol

/-- The name under which trees and messages show the operator. -/
def name : Operator → String
  | not => "NOT"
  | binary c => c.name

/-- The number of operands. -/
def arity : Operator → Nat
  | not => 1
  | binary _ => 2

/-- How tightly the operator binds; a larger number binds tighter. -/
def precedence : Operator → Nat
  | not => 4
  | binary c => c.precedence

/-- A chain of a left-associative operator groups from the left. -/
def leftAssoc : Operator → Bool
  | not => false
  | binary c => c.leftAssoc

/-- The values over the operands true, false, or over the four pairs from true, true to false, false. -/
def table : Operator → List Bool
  | not => [false, true]
  | binary c => [c.apply true true, c.apply true false, c.apply false true, c.apply false false]

/-- All operators, in the order of the operator table. -/
def all : List Operator := not :: Connective.all.map binary

/-- The operator with the symbol `c`. -/
def ofChar? (c : Char) : Option Operator := all.find? (·.symbol == c)

/-- The operator whose symbol is the whole text `s`. -/
def ofSymbol? (s : String) : Option Operator :=
  match s.toList with
  | [c] => ofChar? c
  | _ => none

/-- The operator called `s`. -/
def ofName? (s : String) : Option Operator := all.find? (·.name == s)

/-- The symbol as a text of its own. -/
def text (o : Operator) : String := String.ofList [o.symbol]

theorem mem_all (o : Operator) : o ∈ all := by
  cases o with
  | not => simp [all]
  | binary c => simpa [all] using Connective.mem_all c

@[simp] theorem ofChar?_symbol (o : Operator) : ofChar? o.symbol = some o := by
  cases o with
  | not => decide
  | binary c => cases c <;> decide

theorem symbol_of_ofChar? {c : Char} {o : Operator} (h : ofChar? c = some o) : o.symbol = c := by
  simpa using List.find?_some h

@[simp] theorem ofSymbol?_text (o : Operator) : ofSymbol? o.text = some o := by
  simp [ofSymbol?, text]

theorem text_of_ofSymbol? {s : String} {o : Operator} (h : ofSymbol? s = some o) : o.text = s := by
  unfold ofSymbol? at h
  split at h
  · rename_i c hc
    rw [text, symbol_of_ofChar? h, ← hc, String.ofList_toList]
  · simp at h

end Operator

end Sentential
