/-!
# Decimal fractions and their text

A document may hold a number with a point or an exponent where an integer belongs. The
message that refuses it shows the fewest decimal digits that still round to the same
binary64 number, positionally when the leading digit stands for `10^e` with `-4 ≤ e < 16`
and otherwise with a signed exponent of at least two digits. The digits are found by exact
arithmetic on natural numbers: for one digit, two digits and so on, the two neighbours of the
value on that decimal grid are tested against the interval of reals that round to it.
-/

namespace Sentential

/-- The number `±digits · 10^exponent`, which a document writes with a point or an exponent. -/
structure Decimal where
  negative : Bool
  digits : Nat
  exponent : Int
  deriving DecidableEq, Repr

/-- The number `mantissa · 2^power`. At a power of two the gap below is half the gap above. -/
structure Binary where
  mantissa : Nat
  power : Int
  narrowBelow : Bool
  deriving DecidableEq, Repr

namespace Binary

/-- The nonnegative finite number with the given binary64 pattern. -/
def ofBits (b : UInt64) : Binary :=
  let e := ((b >>> 52) &&& 0x7FF).toNat
  let f := (b &&& 0xFFFFFFFFFFFFF).toNat
  if e = 0 then ⟨f, -1074, false⟩ else ⟨Nat.pow 2 52 + f, (e : Int) - 1075, f == 0 && e > 1⟩

/-- Compares `a · 10^i` with `n · 2^j`. -/
def compareScaled (a : Nat) (i : Int) (n : Nat) (j : Int) : Ordering :=
  compare (a * Nat.pow 10 i.toNat * Nat.pow 2 (-j).toNat)
    (n * Nat.pow 2 j.toNat * Nat.pow 10 (-i).toNat)

/-- `digits · 10^exponent` rounds to `x`; the ends of the interval count for an even mantissa. -/
def roundsTo (x : Binary) (digits : Nat) (exponent : Int) : Bool :=
  let lo := if x.narrowBelow then 4 * x.mantissa - 1 else 4 * x.mantissa - 2
  let below := compareScaled digits exponent lo (x.power - 2)
  let above := compareScaled digits exponent (4 * x.mantissa + 2) (x.power - 2)
  let ends := x.mantissa % 2 == 0
  (below == .gt || (ends && below == .eq)) && (above == .lt || (ends && above == .eq))

/-- The integral part of `x · 10^k`. -/
def scaledFloor (x : Binary) (k : Int) : Nat :=
  x.mantissa * Nat.pow 2 x.power.toNat * Nat.pow 10 k.toNat /
    (Nat.pow 2 (-x.power).toNat * Nat.pow 10 (-k).toNat)

/-- The number of places before the point: the least `k` with `x < 10^k`, for a positive `x`. -/
def places (x : Binary) : Int := ((Nat.toDigits 10 (x.scaledFloor 400)).length : Int) - 400

/-- The grid point `digits · 10^exponent` next to `x` that rounds to it, if there is one. -/
def onGrid? (x : Binary) (exponent : Int) : Option Nat :=
  let d := x.scaledFloor (-exponent)
  match x.roundsTo d exponent, x.roundsTo (d + 1) exponent with
  | true, false => some d
  | false, true => some (d + 1)
  | false, false => none
  | true, true =>
    match compareScaled (2 * d + 1) exponent (2 * x.mantissa) x.power with
    | .gt => some d
    | .lt => some (d + 1)
    | .eq => some (if d % 2 = 0 then d else d + 1)

/-- The fewest digits that round to `x`, with their exponent; seventeen digits always suffice. -/
def shortest (x : Binary) : Nat × Int :=
  let k := x.places
  let found := (List.range 17).findSome? fun (n : Nat) =>
    let exponent := k - ((n : Int) + 1)
    (x.onGrid? exponent).map fun d => (d, exponent)
  found.getD (x.scaledFloor (17 - k), k - 17)

end Binary

namespace Decimal

/-- The binary64 pattern of the magnitude. -/
def bits (d : Decimal) : UInt64 :=
  (Float.ofScientific d.digits (decide (d.exponent < 0)) d.exponent.natAbs).toBits

/-- The pattern of infinity, which a magnitude beyond the largest number rounds to. -/
def infinityBits : UInt64 := 0x7FF0000000000000

/-- Digits without trailing zeros; the zeros move into the exponent. -/
def stripZeros : Nat → Nat → Int → Nat × Int
  | 0, d, e => (d, e)
  | fuel + 1, d, e => if d % 10 = 0 ∧ d ≠ 0 then stripZeros fuel (d / 10) (e + 1) else (d, e)

/-- The exponent mark of scientific notation, with a sign and at least two digits. -/
def exponentText (e : Int) : List Char :=
  'e' :: (if e < 0 then '-' else '+') :: (Nat.toDigits 10 e.natAbs).leftpad 2 '0'

/-- The layout of `digits · 10^exponent`. -/
def layout (digits : Nat) (exponent : Int) : List Char :=
  let ds := Nat.toDigits 10 digits
  let lead := (ds.length : Int) + exponent - 1
  if digits = 0 then ['0', '.', '0']
  else if lead < -4 ∨ 16 ≤ lead then
    match ds with
    | d :: [] => d :: exponentText lead
    | d :: rest => d :: '.' :: rest ++ exponentText lead
    | [] => []
  else if lead < 0 then '0' :: '.' :: List.replicate (-lead - 1).toNat '0' ++ ds
  else if 0 ≤ exponent then ds ++ List.replicate exponent.toNat '0' ++ ['.', '0']
  else ds.take (lead + 1).toNat ++ '.' :: ds.drop (lead + 1).toNat

/-- The fewest digits that round to the same binary64 number as `d`. -/
def text (d : Decimal) : String :=
  let sign := if d.negative then ['-'] else []
  if d.bits = infinityBits then String.ofList (sign ++ ['i', 'n', 'f'])
  else if d.bits = 0 then String.ofList (sign ++ ['0', '.', '0'])
  else
    let (n, e) := (Binary.ofBits d.bits).shortest
    let (n, e) := stripZeros 20 n e
    String.ofList (sign ++ layout n e)

/-- Two numbers round to the same binary64 number; both zeros count as one. -/
def sameNumber (a b : Decimal) : Bool := a.bits == b.bits && (a.negative == b.negative || a.bits == 0)

/-- The binary64 number next to `d` is the integer `n`. -/
def isInteger (d : Decimal) (n : Int) : Bool :=
  let x := Binary.ofBits d.bits
  let sign : Int := if d.negative then -1 else 1
  d.bits != infinityBits &&
    sign * (x.mantissa * Nat.pow 2 x.power.toNat : Nat) == n * Nat.pow 2 (-x.power).toNat

end Decimal

end Sentential
