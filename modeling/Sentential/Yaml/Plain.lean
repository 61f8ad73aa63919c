import Sentential.Settings.Value
import Sentential.Text.Pieces
import Sentential.Text.Radix
import Sentential.Yaml.Time

/-!
# Values of plain scalars

A plain scalar is nothing, a truth value, an integer, a number with a point, a date or a time if
it is written like one, and otherwise a text. Truth values have three words each, in lower case,
capitalised or in upper case. Integers are decimal, binary behind `0b`, octal behind `0`,
hexadecimal behind `0x`, or in sixties with colons. Underscores among the digits
count for nothing.
-/

namespace Sentential.Yaml

open Text (isDigitOf ofDigits)

/-- The words for nothing. -/
def nullWords : List String := ["", "~", "null", "Null", "NULL"]

/-- The words for true. -/
def trueWords : List String := ["yes", "Yes", "YES", "true", "True", "TRUE", "on", "On", "ON"]

/-- The words for false. -/
def falseWords : List String := ["no", "No", "NO", "false", "False", "FALSE", "off", "Off", "OFF"]

/-! ## Digits -/

/-- Digits of a base and underscores, at least one digit. -/
def underscored? (base : Nat) (cs : List Char) : Option (List Char) :=
  let digits := cs.filter (· ≠ '_')
  if !digits.isEmpty && digits.all (isDigitOf base) then some digits else none

/-- Decimal digits and underscores that start with a digit. -/
def decimal? (cs : List Char) : Option (List Char) :=
  match cs with
  | c :: _ => if isDigitOf 10 c then underscored? 10 cs else none
  | [] => none

/-- The sign in front, and the rest. -/
def signOf : List Char → Bool × List Char
  | '-' :: cs => (true, cs)
  | '+' :: cs => (false, cs)
  | cs => (false, cs)

/-! ## Numbers in sixties -/

/-- A digit of a number in sixties: one decimal digit, or two of which the first is below six. -/
def sixtieth? (cs : List Char) : Option Nat :=
  match cs with
  | [c] => if isDigitOf 10 c then some (ofDigits 10 [c]) else none
  | [c, d] => if isDigitOf 6 c && isDigitOf 10 d then some (ofDigits 10 [c, d]) else none
  | _ => none

/-- The number of several pieces in sixties, of which the first is a decimal number. -/
def sixties? (cs : List Char) : Option Nat :=
  match Text.pieces ':' cs with
  | first :: d :: rest => do
    let n := ofDigits 10 (← decimal? first)
    let ds ← (d :: rest).mapM sixtieth?
    return ds.foldl (fun n d => 60 * n + d) n
  | _ => none

/-! ## Integers -/

/-- The integer without its sign. -/
def magnitude? : List Char → Option Nat
  | ['0'] => some 0
  | '0' :: 'b' :: cs => (underscored? 2 cs).map (ofDigits 2)
  | '0' :: 'x' :: cs => (underscored? 16 cs).map (ofDigits 16)
  | '0' :: cs => (underscored? 8 ('0' :: cs)).map (ofDigits 8)
  | cs =>
    match decimal? cs with
    | some digits => some (ofDigits 10 digits)
    | none => sixties? cs

/-- The integer that a plain scalar is written like. -/
def integer? (cs : List Char) : Option Int :=
  let (negative, cs) := signOf cs
  (magnitude? cs).map fun n => if negative then -(n : Int) else n

/-! ## Numbers with a point -/

/-- The exponent behind the digits: none, or a mark with a sign and digits. -/
def exponent? : List Char → Option Int
  | [] => some 0
  | e :: sign :: ds =>
    if (e = 'e' || e = 'E') && (sign = '+' || sign = '-') && !ds.isEmpty && ds.all (isDigitOf 10) then
      some (if sign = '-' then -(ofDigits 10 ds : Int) else ofDigits 10 ds)
    else none
  | _ => none

/-- The digits and underscores behind the point, with the exponent after them. -/
def fraction? (cs : List Char) : Option (List Char × Int) :=
  let isPart := fun c => isDigitOf 10 c || c = '_'
  (exponent? (cs.dropWhile isPart)).map fun e => ((cs.takeWhile isPart).filter (· ≠ '_'), e)

/-- The number with the given digits before the point and behind it. -/
def pointed (negative : Bool) (whole : Nat) (digits : List Char) (e : Int) : Value :=
  .decimal ⟨negative, whole * Nat.pow 10 digits.length + ofDigits 10 digits, e - digits.length⟩

/-- The number that starts with its point. -/
def bareFraction? (cs : List Char) : Option Value := do
  match cs with
  | '.' :: c :: rest =>
    if isDigitOf 10 c then
      let (digits, e) ← fraction? (c :: rest)
      return pointed false 0 digits e
    else none
  | _ => none

/-- The number with digits on the left of its point. -/
def fullFraction? (cs : List Char) : Option Value := do
  let (negative, cs) := signOf cs
  let whole := cs.takeWhile (· ≠ '.')
  match cs.dropWhile (· ≠ '.') with
  | '.' :: rest =>
    let (digits, e) ← fraction? rest
    match decimal? whole with
    | some ds => return pointed negative (ofDigits 10 ds) digits e
    | none =>
      let n ← sixties? whole
      if rest.all fun c => isDigitOf 10 c || c = '_' then return pointed negative n digits 0 else none
  | _ => none

/-- The words for infinity behind the sign. -/
def infinityWords : List String := [".inf", ".Inf", ".INF"]

/-- The words for what is no number. -/
def notANumberWords : List String := [".nan", ".NaN", ".NAN"]

/-- The number with a point that a plain scalar is written like. -/
def fractional? (cs : List Char) : Option Value :=
  let (negative, unsigned) := signOf cs
  if infinityWords.contains (String.ofList unsigned) then some (.infinity negative)
  else if notANumberWords.contains (String.ofList cs) then some .notANumber
  else
    match bareFraction? cs with
    | some v => some v
    | none => fullFraction? cs

/-! ## Values -/

/-- The value of a plain scalar. One that is written like a date or time that there is not has none. -/
def plainValue? (cs : List Char) : Option Value :=
  let s := String.ofList cs
  if nullWords.contains s then some .null
  else if trueWords.contains s then some (.bool true)
  else if falseWords.contains s then some (.bool false)
  else
    match integer? cs with
    | some n => some (.int n)
    | none =>
      match fractional? cs with
      | some v => some v
      | none => (time? cs).getD (some (.text s))

end Sentential.Yaml
