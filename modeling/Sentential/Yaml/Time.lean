import Sentential.Settings.Value
import Sentential.Text.Radix
import Sentential.Yaml.Cursor

/-!
# Times of plain scalars

A plain scalar is a date if it has a year of four digits, a month and a day of two digits each,
and dashes between them. In front of a time of day the month and the day may have one digit. The
time of day follows behind the letter T or behind blanks; a fraction of the second and a time
zone may come after it. Of the fraction six digits count.
-/

namespace Sentential.Yaml

open Text (isDigitOf ofDigits)

/-- The number at the head, if it has at least `least` and at most `most` digits, and what follows it. -/
def number? (least most : Nat) (cs : List Char) : Option (Nat × List Char) :=
  let ds := cs.takeWhile (isDigitOf 10)
  if least ≤ ds.length ∧ ds.length ≤ most then some (ofDigits 10 ds, cs.drop ds.length) else none

/-- What follows the character `c` at the head. -/
def past? (c : Char) : List Char → Option (List Char)
  | [] => none
  | d :: cs => if d = c then some cs else none

/-- The year, month and day at the head, the latter two with at least `least` digits, and what follows. -/
def dayAt? (least : Nat) (cs : List Char) : Option ((Nat × Nat × Nat) × List Char) := do
  let (year, cs) ← number? 4 4 cs
  let (month, cs) ← number? least 2 (← past? '-' cs)
  let (day, cs) ← number? least 2 (← past? '-' cs)
  return ((year, month, day), cs)

/-- What follows the mark between a day and a time of day. -/
def pastDay? : List Char → Option (List Char)
  | [] => none
  | c :: cs => if c = 'T' ∨ c = 't' then some cs else if isSpace c then some (cs.dropWhile isSpace) else none

/-- The millionths of a second behind its point, and what follows them. -/
def fractionAt (cs : List Char) : Nat × List Char :=
  match cs with
  | '.' :: cs =>
    let ds := cs.takeWhile (isDigitOf 10)
    (ofDigits 10 ((ds.take 6).rightpad 6 '0'), cs.drop ds.length)
  | cs => (0, cs)

/-- The time zone that the whole text gives, in minutes: none, the zone of reference, or a distance from it. -/
def zone? : List Char → Option (Option Int)
  | [] => some none
  | ['Z'] => some (some 0)
  | sign :: cs =>
    if sign = '+' ∨ sign = '-' then do
      let (hours, cs) ← number? 1 2 cs
      let minutes ←
        if cs.isEmpty then some 0
        else
          match ← number? 2 2 (← past? ':' cs) with
          | (minutes, []) => some minutes
          | _ => none
      let distance : Int := (60 * hours + minutes : Nat)
      return some (if sign = '-' then -distance else distance)
    else none

/-- The date or time that a plain scalar is written like. Inside, nothing stands for one that there is not. -/
def time? (cs : List Char) : Option (Option Value) :=
  match dayAt? 2 cs with
  | some ((year, month, day), []) => some ((Date.ofNumbers? year month day).map .date)
  | _ => do
    let ((year, month, day), cs) ← dayAt? 1 cs
    let (hour, cs) ← number? 1 2 (← pastDay? cs)
    let (minute, cs) ← number? 2 2 (← past? ':' cs)
    let (second, cs) ← number? 2 2 (← past? ':' cs)
    let (millionths, cs) := fractionAt cs
    let zone ← zone? (cs.dropWhile isSpace)
    return do
      let date ← Date.ofNumbers? year month day
      let moment ← Moment.ofNumbers? date hour minute second millionths zone
      return .moment moment

end Sentential.Yaml
