import Sentential.Yaml.Scalar
import Sentential.Yaml.Token

/-!
# Cutting a document into tokens

The tokens of a document are found from left to right. A line that is indented deeper than the
block collection around it may start a new one, and a line that is indented less ends the
collections it leaves. A key is recognised only when its colon is met: a place where
a key may have started is remembered, and the tokens for the key go back to that place. Such
a key stands on one line and is at most 1024 characters long.

Anchors, aliases, tags, directives and block scalars are not read; a document that holds one
is refused.
-/

namespace Sentential.Yaml

/-- A place where a key may have started. -/
structure KeyStart where
  /-- The number of tokens before it. -/
  token : Nat
  /-- There must be a key, since the place is where the entries of the mapping around it start. -/
  required : Bool
  index : Nat
  line : Nat
  column : Nat
  deriving Repr

/-- The state of the cut. -/
structure Lexer where
  cursor : Cursor
  tokens : Array Token
  /-- The column of the innermost block collection, or -1 outside all. -/
  indent : Int
  /-- The columns of the block collections around it. -/
  outer : List Int
  /-- The number of open flow collections. -/
  depth : Nat
  /-- A key may start here. -/
  keyAllowed : Bool
  /-- The places where a key may have started, by the number of open flow collections. -/
  keys : List (Nat × KeyStart)
  deriving Repr

namespace Lexer

/-- Before the first token. -/
def start (cs : List Char) : Lexer := ⟨Cursor.start cs, #[], -1, [], 0, true, []⟩

/-- Inside a flow collection. -/
def inFlow (s : Lexer) : Bool := s.depth != 0

/-- The state with one more token. -/
def emit (s : Lexer) (t : Token) : Lexer := { s with tokens := s.tokens.push t }

/-- The state after a token of `n` characters. -/
def take (s : Lexer) (n : Nat) (t : Token) : Lexer := { s.emit t with cursor := s.cursor.skip n }

/-! ## Where keys may have started -/

/-- The place can no longer be the start of a key. -/
def isStale (s : Lexer) (k : KeyStart) : Bool := k.line != s.cursor.line || s.cursor.index - k.index > 1024

/-- Forgets the places that are stale. One where there must be a key is an error. -/
def dropStale (s : Lexer) : Option Lexer :=
  if s.keys.any fun (_, k) => s.isStale k && k.required then none
  else some { s with keys := s.keys.filter fun (_, k) => !s.isStale k }

/-- Forgets the place at the current depth. -/
def dropKey (s : Lexer) : Option Lexer :=
  match s.keys.lookup s.depth with
  | some k => if k.required then none else some { s with keys := s.keys.filter (·.1 != s.depth) }
  | none => some s

/-- Remembers the current place if a key may start here. -/
def saveKey (s : Lexer) : Option Lexer :=
  if s.keyAllowed then do
    let s ← s.dropKey
    let required := !s.inFlow && s.indent == s.cursor.column
    let k : KeyStart := ⟨s.tokens.size, required, s.cursor.index, s.cursor.line, s.cursor.column⟩
    return { s with keys := (s.depth, k) :: s.keys }
  else some s

/-! ## Indentation -/

/-- Ends the block collections that start to the right of `column`. -/
def leave (column : Int) (indent : Int) : List Int → Array Token → Int × List Int × Array Token
  | [], tokens => if indent > column then (-1, [], tokens.push .blockEnd) else (indent, [], tokens)
  | o :: outer, tokens =>
    if indent > column then leave column o outer (tokens.push .blockEnd) else (indent, o :: outer, tokens)

/-- Ends the block collections that a line at `column` leaves. In a flow collection indentation has no
meaning. -/
def unwind (s : Lexer) (column : Int) : Lexer :=
  if s.inFlow then s
  else
    let (indent, outer, tokens) := leave column s.indent s.outer s.tokens
    { s with indent := indent, outer := outer, tokens := tokens }

/-- Starts a block collection at `column`, if that is deeper than the current one; its token goes before
the token with the number `place`. -/
def indentAt (s : Lexer) (column place : Nat) (t : Token) : Lexer :=
  if s.indent < column then
    { s with
      indent := column
      outer := s.indent :: s.outer
      tokens := s.tokens.insertIdxIfInBounds place t }
  else s

/-- Starts a block collection at the current column, if that is deeper than the current one. -/
def indentHere (s : Lexer) (t : Token) : Lexer := s.indentAt s.cursor.column s.tokens.size t

/-! ## Tokens -/

/-- The place of the next token, past blanks, comments and line breaks, and whether there were line
breaks. -/
def skipGap : Nat → Cursor → Bool → Cursor × Bool
  | 0, c, crossed => (c, crossed)
  | fuel + 1, c, crossed =>
    let (_, c) := c.span (· = ' ')
    let (_, c) := if c.atComment then c.span (!isBreak ·) else ([], c)
    if c.atBreak then skipGap fuel c.next true else (c, crossed)

/-- Goes to the next token. After a line break a key may start, except in a flow collection. -/
def toNext (s : Lexer) : Option Lexer := do
  let (cursor, crossed) := skipGap (s.cursor.rest.length + 1) s.cursor false
  let s ← dropStale { s with cursor := cursor, keyAllowed := s.keyAllowed || (crossed && !s.inFlow) }
  return s.unwind s.cursor.column

/-- The end of the document. -/
def finish (s : Lexer) : Option Lexer := (s.unwind (-1)).dropKey

/-- A mark between documents. -/
def takeMark (s : Lexer) (t : Token) : Option Lexer := do
  let s ← (s.unwind (-1)).dropKey
  return { s.take 3 t with keyAllowed := false }

/-- A bracket that opens a flow collection. -/
def takeOpening (s : Lexer) (t : Token) : Option Lexer := do
  let s ← s.saveKey
  return { s.take 1 t with depth := s.depth + 1, keyAllowed := true }

/-- A bracket that closes a flow collection. -/
def takeClosing (s : Lexer) (t : Token) : Option Lexer := do
  let s ← s.dropKey
  return { s.take 1 t with depth := s.depth - 1, keyAllowed := false }

/-- A comma of a flow collection. -/
def takeComma (s : Lexer) : Option Lexer := do
  let s ← s.dropKey
  return { s.take 1 .comma with keyAllowed := true }

/-- The dash of a list item. -/
def takeItem (s : Lexer) : Option Lexer :=
  if !s.inFlow && !s.keyAllowed then none
  else do
    let s := if s.inFlow then s else s.indentHere .blockListStart
    let s ← s.dropKey
    return { s.take 1 .item with keyAllowed := true }

/-- The question mark before a key. -/
def takeKey (s : Lexer) : Option Lexer :=
  if !s.inFlow && !s.keyAllowed then none
  else do
    let s := if s.inFlow then s else s.indentHere .blockMappingStart
    let s ← s.dropKey
    return { s.take 1 .key with keyAllowed := !s.inFlow }

/-- The colon after a key. The tokens of a key without question mark go back to where the key started. -/
def takeValue (s : Lexer) : Option Lexer :=
  match s.keys.lookup s.depth with
  | some k =>
    let s := { s with
      keys := s.keys.filter (·.1 != s.depth)
      tokens := s.tokens.insertIdxIfInBounds k.token .key }
    let s := if s.inFlow then s else s.indentAt k.column k.token .blockMappingStart
    some { s.take 1 .value with keyAllowed := false }
  | none =>
    if !s.inFlow && !s.keyAllowed then none
    else
      let s := if s.inFlow then s else s.indentHere .blockMappingStart
      some { s.take 1 .value with keyAllowed := !s.inFlow }

/-- A quoted scalar. -/
def takeQuoted (s : Lexer) (double : Bool) : Option Lexer := do
  let s ← s.saveKey
  let (text, cursor) ← quotedScalar double s.cursor
  return { s.emit (.scalar false text) with cursor := cursor, keyAllowed := false }

/-- A plain scalar. After one that ends at a line break a key may start. -/
def takePlain (s : Lexer) : Option Lexer := do
  let s ← s.saveKey
  let (text, cursor, crossed) := plainScalar s.inFlow (s.indent + 1) s.cursor
  return { s.emit (.scalar true text) with cursor := cursor, keyAllowed := crossed }

/-- A dash, question mark or colon stands for itself before a gap; the latter two also in a flow
collection. -/
def isIndicator (s : Lexer) (c : Char) (rest : List Char) : Bool :=
  match c with
  | '-' => gapNext rest
  | _ => s.inFlow || gapNext rest

/-- The token at the cursor, which starts with `c`. -/
def takeToken (s : Lexer) (c : Char) (rest : List Char) : Option Lexer :=
  if s.cursor.column = 0 ∧ c = '%' then none
  else if s.cursor.column = 0 ∧ markNext (c :: rest) then
    s.takeMark (if c = '-' then .documentStart else .documentEnd)
  else if c = '[' then s.takeOpening .flowListStart
  else if c = '{' then s.takeOpening .flowMappingStart
  else if c = ']' then s.takeClosing .flowListEnd
  else if c = '}' then s.takeClosing .flowMappingEnd
  else if c = ',' then s.takeComma
  else if c = '-' ∧ s.isIndicator c rest then s.takeItem
  else if c = '?' ∧ s.isIndicator c rest then s.takeKey
  else if c = ':' ∧ s.isIndicator c rest then s.takeValue
  else if c = quoteOf false then s.takeQuoted false
  else if c = quoteOf true then s.takeQuoted true
  else if startsPlain s.inFlow (c :: rest) then s.takePlain
  else none

/-- The tokens up to the end of the document. Every token takes at least one character. -/
def run : Nat → Lexer → Option Lexer
  | 0, _ => none
  | fuel + 1, s => do
    let s ← s.toNext
    match s.cursor.rest with
    | [] => s.finish
    | c :: rest => run fuel (← s.takeToken c rest)

end Lexer

/-- The tokens of a document. -/
def tokensOf (cs : List Char) : Option (List Token) :=
  ((Lexer.start cs).run (cs.length + 1)).map fun s => s.tokens.toList

end Sentential.Yaml
