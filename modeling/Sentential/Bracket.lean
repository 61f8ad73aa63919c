/-!
# Brackets

Parentheses and braces open and close groups and are interchangeable: `(` may be closed
by `}`. `firstUnbalanced` reports where the balance breaks and `spans` lists the matching
pairs, both in one scan with the positions of the open brackets at hand. `Balanced` and
`Matched` say what balance and matching mean without a scan.
-/

namespace Sentential.Bracket

/-- The brackets that open a group. -/
def isOpening (c : Char) : Bool := c == '(' || c == '{'

/-- The brackets that close a group. -/
def isClosing (c : Char) : Bool := c == ')' || c == '}'

/-- Texts in which every bracket has its partner. -/
inductive Balanced : List Char → Prop
  | nil : Balanced []
  | plain {c : Char} {cs : List Char} (ho : isOpening c = false) (hc : isClosing c = false)
      (h : Balanced cs) : Balanced (c :: cs)
  | group {o c : Char} {inner rest : List Char} (ho : isOpening o = true) (hi : Balanced inner)
      (hc : isClosing c = true) (hr : Balanced rest) : Balanced (o :: (inner ++ c :: rest))

/-- The brackets at `i` and `j` enclose a balanced text. -/
def Matched (cs : List Char) (i j : Nat) : Prop :=
  ∃ (before inner after : List Char) (o c : Char),
    cs = before ++ o :: (inner ++ c :: after) ∧ isOpening o = true ∧ isClosing c = true ∧
      Balanced inner ∧ before.length = i ∧ i + inner.length + 1 = j

/-- Scans for the break of balance, with the positions of the open brackets, latest first. -/
def firstUnbalancedFrom (pos : Nat) (opened : List Nat) : List Char → Option Nat
  | [] => opened.getLast?
  | c :: cs =>
    if isOpening c then firstUnbalancedFrom (pos + 1) (pos :: opened) cs
    else if isClosing c then
      match opened with
      | [] => some pos
      | _ :: rest => firstUnbalancedFrom (pos + 1) rest cs
    else firstUnbalancedFrom (pos + 1) opened cs

/-- The position of the bracket that breaks the balance: a closing bracket with nothing open, or
else the earliest opening bracket that is never closed. -/
def firstUnbalanced (cs : List Char) : Option Nat := firstUnbalancedFrom 0 [] cs

/-- Scans for matching pairs, with the positions of the open brackets, latest first. -/
def spansFrom (pos : Nat) (opened : List Nat) : List Char → List (Nat × Nat)
  | [] => []
  | c :: cs =>
    if isOpening c then spansFrom (pos + 1) (pos :: opened) cs
    else if isClosing c then
      match opened with
      | [] => spansFrom (pos + 1) [] cs
      | i :: rest => (i, pos) :: spansFrom (pos + 1) rest cs
    else spansFrom (pos + 1) opened cs

/-- The positions of the matching pairs, in the order in which they close. -/
def spans (cs : List Char) : List (Nat × Nat) := spansFrom 0 [] cs

/-- The part of a text from position `i` to position `j`, both included. -/
def slice (cs : List Char) (span : Nat × Nat) : List Char := (cs.drop span.1).take (span.2 + 1 - span.1)

end Sentential.Bracket
