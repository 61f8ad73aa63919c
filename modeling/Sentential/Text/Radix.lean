/-!
# Digits of a base

The digits of a base up to sixteen are the ASCII digits and then the letters from `a` to `f` in
either case.
-/

namespace Sentential.Text

/-- The value of a digit. -/
def radixDigit? (c : Char) : Option Nat :=
  if '0' ≤ c ∧ c ≤ '9' then some (c.toNat - '0'.toNat)
  else if 'a' ≤ c ∧ c ≤ 'f' then some (c.toNat - 'a'.toNat + 10)
  else if 'A' ≤ c ∧ c ≤ 'F' then some (c.toNat - 'A'.toNat + 10)
  else none

/-- The character is a digit of the base. -/
def isDigitOf (base : Nat) (c : Char) : Bool :=
  match radixDigit? c with
  | some d => decide (d < base)
  | none => false

/-- The number that digits stand for in a base. -/
def ofDigits (base : Nat) (cs : List Char) : Nat :=
  cs.foldl (fun n c => base * n + (radixDigit? c).getD 0) 0

end Sentential.Text
