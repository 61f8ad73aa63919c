import Sentential.Text.Printable

/-!
# Quoted text

Messages show a piece of text between quote marks. The mark is the single quote unless
the text holds a single quote and no double quote. Inside, the backslash and the mark
stand behind a backslash, tab, line feed and carriage return have a letter, and any other
character that is not printable is spelled by its code point in lower-case
hexadecimal: two, four or eight digits, the fewest that fit.
-/

namespace Sentential.Text

/-- The single quote, the mark used unless it would need escaping. -/
def singleQuote : Char := '\x27'

/-- The mark that stands around `cs`. -/
def quoteMark (cs : List Char) : Char :=
  if cs.contains singleQuote && !cs.contains '"' then '"' else singleQuote

/-- The lower-case hexadecimal digits of `n`, padded with zeros to `width`. -/
def hexDigits (width n : Nat) : List Char := (Nat.toDigits 16 n).leftpad width '0'

/-- The spelling of a character by its code point. -/
def spelledOut (c : Char) : List Char :=
  if c.toNat < 0x100 then '\\' :: 'x' :: hexDigits 2 c.toNat
  else if c.toNat < 0x10000 then '\\' :: 'u' :: hexDigits 4 c.toNat
  else '\\' :: 'U' :: hexDigits 8 c.toNat

/-- One character inside quote marks. -/
def quotedChar (mark c : Char) : List Char :=
  if c = mark ∨ c = '\\' then ['\\', c]
  else if c = '\t' then ['\\', 't']
  else if c = '\n' then ['\\', 'n']
  else if c = '\r' then ['\\', 'r']
  else if isPrintable c then [c]
  else spelledOut c

/-- The text `s` between quote marks. -/
def quoted (s : String) : String :=
  let mark := quoteMark s.toList
  String.ofList (mark :: s.toList.flatMap (quotedChar mark) ++ [mark])

/-- One byte inside quote marks. Bytes outside the ASCII characters are spelled out. -/
def quotedByte (mark : Char) (b : UInt8) : List Char :=
  let c := Char.ofNat b.toNat
  if b.toNat < 0x7F then quotedChar mark c else spelledOut c

/-- Bytes between quote marks, behind a letter that tells them from a text. -/
def quotedBytes (bs : List UInt8) : String :=
  let mark := quoteMark (bs.map fun b => Char.ofNat b.toNat)
  String.ofList ('b' :: mark :: bs.flatMap (quotedByte mark) ++ [mark])

end Sentential.Text
