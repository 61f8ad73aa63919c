import Sentential.Settings.Decimal
import Sentential.Settings.Time
import Sentential.Text.Digit
import Sentential.Text.Quoted

/-!
# Values of a configuration document

A configuration file or mapping holds values of any shape, of which only integers, texts and
truth values are ever accepted. `Value.shown?` is how a message shows a value that is refused.
An integer of more than `Text.digitLimit` digits cannot be shown, and neither can a value that
holds one.
-/

namespace Sentential

/-- A value of a configuration document. Mappings keep the order of their keys, and sets the order in which
their members are shown. -/
inductive Value where
  | null
  | bool (b : Bool)
  | int (i : Int)
  | decimal (d : Decimal)
  | infinity (negative : Bool)
  | notANumber
  | text (s : String)
  | bytes (bs : List UInt8)
  | date (d : Date)
  | moment (m : Moment)
  | list (items : List Value)
  | set (members : List Value)
  /-- A list of pairs, as a document writes an ordered mapping. -/
  | pairs (entries : List (Value × Value))
  | mapping (entries : List (Value × Value))
  deriving Inhabited, Repr

namespace Value

/-- The text of a truth value in messages. -/
def shownBool (b : Bool) : String := if b then "True" else "False"

/-- The text of an integer in messages, if it does not have too many digits. -/
def shownInt? (i : Int) : Option String :=
  if i.natAbs < Text.digitBound then some (toString i) else none

/-- The text of a set from those of its members. -/
def shownSet : List String → String
  | [] => "set()"
  | members => "\x7b" ++ ", ".intercalate members ++ "\x7d"

mutual

/-- The text of a value in messages, if it can be shown. -/
def shown? : Value → Option String
  | null => some "None"
  | bool b => some (shownBool b)
  | int i => shownInt? i
  | decimal d => some d.text
  | infinity negative => some (if negative then "-inf" else "inf")
  | notANumber => some "nan"
  | text s => some (Text.quoted s)
  | bytes bs => some (Text.quotedBytes bs)
  | date d => some d.text
  | moment m => some m.text
  | list items => (shownItems? items).map fun texts => "[" ++ ", ".intercalate texts ++ "]"
  | set members => (shownItems? members).map shownSet
  | pairs entries =>
    (shownEntries? entries).map fun texts =>
      "[" ++ ", ".intercalate (texts.map fun (k, v) => "(" ++ k ++ ", " ++ v ++ ")") ++ "]"
  | mapping entries =>
    (shownEntries? entries).map fun texts =>
      "\x7b" ++ ", ".intercalate (texts.map fun (k, v) => k ++ ": " ++ v) ++ "\x7d"

/-- The texts of values, if all of them can be shown. -/
def shownItems? : List Value → Option (List String)
  | [] => some []
  | v :: rest => do
    let text ← shown? v
    let texts ← shownItems? rest
    return text :: texts

/-- The texts of entries, if all of them can be shown. -/
def shownEntries? : List (Value × Value) → Option (List (String × String))
  | [] => some []
  | (k, v) :: rest => do
    let key ← shown? k
    let value ← shown? v
    let texts ← shownEntries? rest
    return (key, value) :: texts

end

/-- Texts, numbers, times and truth values can be keys; collections cannot. -/
def isScalar : Value → Bool
  | list _ => false
  | set _ => false
  | pairs _ => false
  | mapping _ => false
  | _ => true

/-- The text of a value that is one. -/
def text? : Value → Option String
  | text s => some s
  | _ => none

/-- The value is the text `s`. -/
def isText (v : Value) (s : String) : Bool := v.text? == some s

/-- The integer that a value is equal to as a number: a truth value counts as 1 or 0. -/
def integer? : Value → Option Int
  | int i => some i
  | bool b => some (if b then 1 else 0)
  | _ => none

end Value

end Sentential
