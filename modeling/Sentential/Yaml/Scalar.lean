import Sentential.Text.Radix
import Sentential.Yaml.Cursor

/-!
# Scalars of a document

A quoted scalar runs to its closing quote and a plain scalar to a comment, to the colon of a
key, or to a line that is not indented deeply enough. Inside a scalar a single line break
counts as a blank, and of several line breaks the first is dropped. A mark between
documents breaks a quoted scalar off, which is an error, and ends a plain one.
-/

namespace Sentential.Yaml

/-- The text that stands for a line break and the breaks after it. -/
def folded (first : Char) (others : List Char) : List Char :=
  if foldedBreak first ≠ '\n' then foldedBreak first :: others
  else if others.isEmpty then [' ']
  else others

/-! ## Quoted scalars -/

/-- The further line breaks after one, past the blanks before each. -/
def quotedBreaks : Nat → Cursor → Option (List Char × Cursor)
  | 0, _ => none
  | fuel + 1, c =>
    if markNext c.rest then none
    else
      let (_, c) := c.span isSpace
      match c.rest with
      | x :: _ =>
        if isBreak x then do
          let (others, c) ← quotedBreaks fuel c.next
          return (foldedBreak x :: others, c)
        else some ([], c)
      | [] => some ([], c)

/-- The text that stands for the gap at the cursor. -/
def quotedGap (c : Cursor) : Option (List Char × Cursor) := do
  let (blanks, c) := c.span isSpace
  match c.rest with
  | [] => none
  | x :: _ =>
    if isBreak x then
      let (others, c) ← quotedBreaks (c.rest.length + 1) c.next
      return (folded x others, c)
    else return (blanks, c)

/-- The character that a letter behind a backslash stands for. -/
def escape? : Char → Option Char
  | '0' => some '\x00'
  | 'a' => some '\x07'
  | 'b' => some '\x08'
  | 't' => some '\t'
  | '\t' => some '\t'
  | 'n' => some '\n'
  | 'v' => some '\x0B'
  | 'f' => some '\x0C'
  | 'r' => some '\r'
  | 'e' => some '\x1B'
  | ' ' => some ' '
  | '"' => some '"'
  | '\\' => some '\\'
  | '/' => some '/'
  | 'N' => some '\u0085'
  | '_' => some '\u00A0'
  | 'L' => some '\u2028'
  | 'P' => some '\u2029'
  | _ => none

/-- The number of hexadecimal digits behind a letter that introduces a code point. -/
def escapeWidth? : Char → Option Nat
  | 'x' => some 2
  | 'u' => some 4
  | 'U' => some 8
  | _ => none

/-- The character whose code point the digits give. -/
def ofCodePoint? (width : Nat) (digits : List Char) : Option Char :=
  let n := Text.ofDigits 16 digits
  if digits.length = width ∧ digits.all (Text.isDigitOf 16) ∧ n.isValidChar then some (Char.ofNat n) else none

/-- The text that stands for the backslash at the cursor and what belongs to it. -/
def quotedEscape (c : Cursor) : Option (List Char × Cursor) :=
  match c.next.rest with
  | [] => none
  | x :: rest =>
    if isBreak x then quotedBreaks (rest.length + 1) (c.skip 2)
    else
      match escape? x, escapeWidth? x with
      | some e, _ => some ([e], c.skip 2)
      | none, some width => (ofCodePoint? width (rest.take width)).map fun e => ([e], c.skip (2 + width))
      | none, none => none

/-- The quote that stands around a scalar. -/
def quoteOf (double : Bool) : Char := if double then '"' else '\x27'

/-- The text up to the closing quote, and the place after it. -/
def quotedText (double : Bool) : Nat → Cursor → Option (List Char × Cursor)
  | 0, _ => none
  | fuel + 1, c =>
    match c.rest with
    | [] => none
    | x :: rest =>
      if x = quoteOf double then
        if !double && rest.head? == some x then do
          let (text, c) ← quotedText double fuel (c.skip 2)
          return (x :: text, c)
        else some ([], c.next)
      else do
        let (part, c) ←
          if double && x = '\\' then quotedEscape c
          else if isGap x then quotedGap c
          else some ([x], c.next)
        let (text, c) ← quotedText double fuel c
        return (part ++ text, c)

/-- The quoted scalar at the cursor, and the place after it. -/
def quotedScalar (double : Bool) (c : Cursor) : Option (List Char × Cursor) :=
  quotedText double (c.rest.length + 1) c.next

/-! ## Plain scalars -/

/-- A character that ends a plain scalar inside a flow collection. -/
def isFlowMark (c : Char) : Bool := c = ',' || c = '?' || c = '[' || c = ']' || c = '{' || c = '}'

/-- After a colon: it ends a key. -/
def endsKey (flow : Bool) : List Char → Bool
  | [] => true
  | c :: _ => isGap c || (flow && (c = ',' || c = '[' || c = ']' || c = '{' || c = '}'))

/-- The characters of a plain scalar up to the next gap or its end. -/
def plainSpan (flow : Bool) : List Char → List Char
  | [] => []
  | c :: cs =>
    if isGap c || (c = ':' && endsKey flow cs) || (flow && isFlowMark c) then [] else c :: plainSpan flow cs

/-- The line breaks from here on, past blanks; nothing if a mark between documents follows one. -/
def plainBreaks : Nat → Cursor → Option (List Char) × Cursor
  | 0, c => (none, c)
  | fuel + 1, c =>
    match c.rest with
    | x :: _ =>
      if x = ' ' then plainBreaks fuel c.next
      else if isBreak x then
        let c := c.next
        if markNext c.rest then (none, c)
        else
          let (others, c) := plainBreaks fuel c
          (others.map (foldedBreak x :: ·), c)
      else (some [], c)
    | [] => (some [], c)

/-- The gap in a plain scalar: the text that it stands for, which is empty if the scalar ends here,
the place after it, and whether it holds a line break. -/
def plainGap (c : Cursor) : List Char × Cursor × Bool :=
  let (blanks, c) := c.span (· = ' ')
  match c.rest with
  | x :: _ =>
    if isBreak x then
      let c := c.next
      if markNext c.rest then ([], c, true)
      else
        match plainBreaks (c.rest.length + 1) c with
        | (some others, c) => (folded x others, c, true)
        | (none, c) => ([], c, true)
    else (blanks, c, false)
  | [] => (blanks, c, false)

/-- The text of a plain scalar from here on, the place after it, and whether a line break comes last
before that place. The scalar goes on at columns from `indent`. -/
def plainText (flow : Bool) (indent : Int) : Nat → Cursor → Bool → List Char × Cursor × Bool
  | 0, c, crossed => ([], c, crossed)
  | fuel + 1, c, crossed =>
    let part := plainSpan flow c.rest
    if c.atComment || part.isEmpty then ([], c, crossed)
    else
      let (gap, c, crossed) := plainGap (c.skip part.length)
      if gap.isEmpty || c.atComment || (!flow && decide ((c.column : Int) < indent)) then (part, c, crossed)
      else
        let (text, c, crossed) := plainText flow indent fuel c crossed
        (if text.isEmpty then part else part ++ gap ++ text, c, crossed)

/-- The plain scalar at the cursor, with the place after it. -/
def plainScalar (flow : Bool) (indent : Int) (c : Cursor) : List Char × Cursor × Bool :=
  plainText flow indent (c.rest.length + 1) c false

/-- A plain scalar can start with these characters. -/
def startsPlain (flow : Bool) : List Char → Bool
  | [] => false
  | c :: cs =>
    !(isGap c || "-?:,[]\x7b\x7d#&*!|>\x27\"%@\x60".toList.contains c) ||
      (!gapNext cs && (c = '-' || (!flow && (c = '?' || c = ':'))))

end Sentential.Yaml
