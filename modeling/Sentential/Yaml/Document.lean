import Sentential.Yaml.Lexer
import Sentential.Yaml.Node
import Sentential.Yaml.Plain

/-!
# Reading a document

A document is read in three steps: its characters are cut into tokens, the tokens form a tree,
and the tree becomes a value. Every step can refuse the document. Of two entries with equal
keys in a mapping the later one counts, at the place of the earlier one; only scalars can be
keys. A file without a document is the null value. Bytes, sets and lists of pairs need tags and
are never read.
-/

namespace Sentential.Yaml

/-- The characters that a document may hold. -/
def isAllowed (c : Char) : Bool :=
  let n := c.toNat
  c = '\t' || c = '\n' || (0x20 ≤ n && n ≤ 0x7E) || n = 0x85 || (0xA0 ≤ n && n ≤ 0xFFFD) || 0x10000 ≤ n

/-- The text with a line feed for every carriage return, and one for both together. -/
def lines : List Char → List Char
  | [] => []
  | '\r' :: '\n' :: cs => '\n' :: lines cs
  | '\r' :: cs => '\n' :: lines cs
  | c :: cs => c :: lines cs

/-- Two keys are the same: numbers and truth values when they are equal as numbers. -/
def sameKey : Value → Value → Bool
  | .null, .null => true
  | .text s, .text t => s == t
  | .bytes a, .bytes b => a == b
  | .date a, .date b => a == b
  | .moment a, .moment b => a.same b
  | .infinity a, .infinity b => a == b
  | .notANumber, .notANumber => true
  | .decimal a, .decimal b => a.sameNumber b
  | .decimal a, v => v.integer?.any a.isInteger
  | v, .decimal a => v.integer?.any a.isInteger
  | v, w =>
    match v.integer?, w.integer? with
    | some m, some n => m == n
    | _, _ => false

/-- The entries with one more. -/
def putEntry : List (Value × Value) → Value → Value → List (Value × Value)
  | [], k, v => [(k, v)]
  | (k', v') :: rest, k, v => if sameKey k' k then (k', v) :: rest else (k', v') :: putEntry rest k v

/-- The plain scalars that stand for a merge or a default; a document that holds one is refused. -/
def isReserved (cs : List Char) : Bool := cs = ['<', '<'] || cs = ['=']

mutual

/-- The value of a node. -/
def Node.value? : Node → Option Value
  | .scalar true text => if isReserved text then none else plainValue? text
  | .scalar false text => some (.text (String.ofList text))
  | .list items => (itemValues? items).map .list
  | .mapping entries => (entryValues? [] entries).map .mapping

/-- The values of the items of a list. -/
def itemValues? : List Node → Option (List Value)
  | [] => some []
  | x :: rest => do
    let v ← x.value?
    let values ← itemValues? rest
    return v :: values

/-- The values of the entries of a mapping, put after those before them. -/
def entryValues? (before : List (Value × Value)) : List (Node × Node) → Option (List (Value × Value))
  | [] => some before
  | (k, v) :: rest => do
    let key ← k.value?
    if key.isScalar then entryValues? (putEntry before key (← v.value?)) rest else none

end

/-- The value of a document. -/
def read (s : String) : Option Value := do
  let cs := lines s.toList
  if cs.all isAllowed then
    match ← documentOf (← tokensOf cs) with
    | some root => root.value?
    | none => return .null
  else none

end Sentential.Yaml
