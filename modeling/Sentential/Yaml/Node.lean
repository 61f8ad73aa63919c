import Sentential.Yaml.Token

/-!
# The tree of a document

The tokens of a document form a tree of scalars, lists and mappings. Block collections are
bracketed by the tokens for indentation, except that a list directly under a key may stand
without any. A node that is left out is an empty plain scalar.
-/

namespace Sentential.Yaml

/-- A node of a document. -/
inductive Node where
  | scalar (plain : Bool) (text : List Char)
  | list (items : List Node)
  | mapping (entries : List (Node × Node))
  deriving Repr

/-- A node that is left out. -/
def Node.empty : Node := .scalar true []

/-- The next token is one of these. -/
def nextIs (these : List Token) : List Token → Bool
  | t :: _ => these.contains t
  | [] => false

/-- The tokens past the comma that must stand before every item but the first. -/
def pastComma (first : Bool) (ts : List Token) : Option (List Token) :=
  if first then some ts
  else
    match ts with
    | .comma :: ts => some ts
    | _ => none

mutual

/-- The node at the head of the tokens. A block node may start a block collection; a list without
indentation is allowed only under a key. -/
def node (block underKey : Bool) : Nat → List Token → Option (Node × List Token)
  | 0, _ => none
  | fuel + 1, ts =>
    match ts with
    | .scalar plain text :: ts => some (.scalar plain text, ts)
    | .flowListStart :: ts => do
      let (items, ts) ← flowItems true fuel ts
      return (.list items, ts)
    | .flowMappingStart :: ts => do
      let (entries, ts) ← flowEntries true fuel ts
      return (.mapping entries, ts)
    | .blockListStart :: ts =>
      if block then do
        let (items, ts) ← blockItems fuel ts
        return (.list items, ts)
      else none
    | .blockMappingStart :: ts =>
      if block then do
        let (entries, ts) ← blockEntries fuel ts
        return (.mapping entries, ts)
      else none
    | .item :: _ =>
      if underKey then do
        let (items, ts) ← plainItems fuel ts
        return (.list items, ts)
      else none
    | _ => none

/-- The node at the head of the tokens, or the empty node before one of the given tokens. -/
def nodeUnless (these : List Token) (block underKey : Bool) : Nat → List Token → Option (Node × List Token)
  | 0, _ => none
  | fuel + 1, ts => if nextIs these ts then some (.empty, ts) else node block underKey fuel ts

/-- The value of an entry, which may be left out together with its colon. -/
def valueUnless (these : List Token) (block underKey : Bool) : Nat → List Token → Option (Node × List Token)
  | 0, _ => none
  | fuel + 1, ts =>
    match ts with
    | .value :: ts => nodeUnless these block underKey fuel ts
    | ts => some (.empty, ts)

/-- The items of a list up to the end of its indentation. -/
def blockItems : Nat → List Token → Option (List Node × List Token)
  | 0, _ => none
  | fuel + 1, ts =>
    match ts with
    | .item :: ts => do
      let (x, ts) ← nodeUnless [.item, .blockEnd] true false fuel ts
      let (items, ts) ← blockItems fuel ts
      return (x :: items, ts)
    | .blockEnd :: ts => some ([], ts)
    | _ => none

/-- The items of a list without indentation. -/
def plainItems : Nat → List Token → Option (List Node × List Token)
  | 0, _ => none
  | fuel + 1, ts =>
    match ts with
    | .item :: ts => do
      let (x, ts) ← nodeUnless [.item, .key, .value, .blockEnd] true false fuel ts
      let (items, ts) ← plainItems fuel ts
      return (x :: items, ts)
    | ts => some ([], ts)

/-- The entries of a mapping up to the end of its indentation. -/
def blockEntries : Nat → List Token → Option (List (Node × Node) × List Token)
  | 0, _ => none
  | fuel + 1, ts =>
    match ts with
    | .key :: ts => do
      let (k, ts) ← nodeUnless [.key, .value, .blockEnd] true true fuel ts
      let (v, ts) ← valueUnless [.key, .value, .blockEnd] true true fuel ts
      let (entries, ts) ← blockEntries fuel ts
      return ((k, v) :: entries, ts)
    | .blockEnd :: ts => some ([], ts)
    | _ => none

/-- The items of a flow list up to its bracket. An item with a key is a mapping of one entry. -/
def flowItems (first : Bool) : Nat → List Token → Option (List Node × List Token)
  | 0, _ => none
  | fuel + 1, ts =>
    match ts with
    | .flowListEnd :: ts => some ([], ts)
    | ts => do
      let ts ← pastComma first ts
      match ts with
      | .flowListEnd :: ts => return ([], ts)
      | .key :: ts =>
        let (k, ts) ← nodeUnless [.value, .comma, .flowListEnd] false false fuel ts
        let (v, ts) ← valueUnless [.comma, .flowListEnd] false false fuel ts
        let (items, ts) ← flowItems false fuel ts
        return (.mapping [(k, v)] :: items, ts)
      | ts =>
        let (x, ts) ← node false false fuel ts
        let (items, ts) ← flowItems false fuel ts
        return (x :: items, ts)

/-- The entries of a flow mapping up to its bracket. An entry without colon has an empty value. -/
def flowEntries (first : Bool) : Nat → List Token → Option (List (Node × Node) × List Token)
  | 0, _ => none
  | fuel + 1, ts =>
    match ts with
    | .flowMappingEnd :: ts => some ([], ts)
    | ts => do
      let ts ← pastComma first ts
      match ts with
      | .flowMappingEnd :: ts => return ([], ts)
      | .key :: ts =>
        let (k, ts) ← nodeUnless [.value, .comma, .flowMappingEnd] false false fuel ts
        let (v, ts) ← valueUnless [.comma, .flowMappingEnd] false false fuel ts
        let (entries, ts) ← flowEntries false fuel ts
        return ((k, v) :: entries, ts)
      | ts =>
        let (k, ts) ← node false false fuel ts
        let (entries, ts) ← flowEntries false fuel ts
        return ((k, .empty) :: entries, ts)

end

/-- The tokens past the marks behind a document. -/
def pastMarks (ts : List Token) : List Token := ts.dropWhile (· == .documentEnd)

/-- The tree of a document, which may be missing. There is at most one document; a mark in front of it
makes an empty one possible. -/
def documentOf (ts : List Token) : Option (Option Node) := do
  let fuel := 4 * ts.length + 4
  match ts with
  | [] => return none
  | .documentStart :: ts =>
    let (root, ts) ←
      if ts.isEmpty || nextIs [.documentStart, .documentEnd] ts then some (Node.empty, ts)
      else node true false fuel ts
    if (pastMarks ts).isEmpty then return some root else none
  | ts =>
    let (root, ts) ← node true false fuel ts
    if (pastMarks ts).isEmpty then return some root else none

end Sentential.Yaml
