import Sentential.Text.Digit
import Sentential.Text.Range

/-!
# Integers in texts

An integer may stand between blanks, of which U+001C to U+001F do not count here. It has a sign
or none, then decimal digits of any script, and a single underscore may stand between two digits.
Leading zeros add nothing to its value, but they count among the digits, of which there may be
`digitLimit` at most.
-/

namespace Sentential.Text

/-- The characters that may stand on either side of an integer, as ascending ranges. -/
def paddingRanges : List (Nat × Nat) :=
  [(0x09, 0x0D), (0x20, 0x20), (0x85, 0x85), (0xA0, 0xA0), (0x1680, 0x1680), (0x2000, 0x200A),
   (0x2028, 0x2029), (0x202F, 0x202F), (0x205F, 0x205F), (0x3000, 0x3000)]

/-- The character may stand on either side of an integer. -/
def isPadding (c : Char) : Bool := inRanges paddingRanges c.toNat

/-- A text without the padding at either end. -/
def unpadded (cs : List Char) : List Char := ((cs.dropWhile isPadding).reverse.dropWhile isPadding).reverse

/-- The number that the digits add to `n`, each underscore standing between two digits. -/
def digitsFrom (n : Nat) : List Char → Option Nat
  | [] => some n
  | '_' :: c :: cs => do digitsFrom (10 * n + (← digit? c)) cs
  | c :: cs => do digitsFrom (10 * n + (← digit? c)) cs

/-- The number that a run of digits stands for, if the run is not too long. -/
def natural? : List Char → Option Nat
  | [] => none
  | c :: cs => if cs.countP (· != '_') < digitLimit then do digitsFrom (← digit? c) cs else none

/-- The integer that a text stands for. -/
def integer? (cs : List Char) : Option Int :=
  match unpadded cs with
  | '+' :: ds => (natural? ds).map fun n => (n : Int)
  | '-' :: ds => (natural? ds).map fun n => -(n : Int)
  | ds => (natural? ds).map fun n => (n : Int)

/-- The blank U+0085 may stand behind an integer, and the blank U+001C may not stand in front of one. -/
example : integer? [' ', '-', '5', '\u0085'] = some (-5) ∧ integer? ['\x1c', '5'] = none := by decide

end Sentential.Text
