/-!
# Places in a document

A cursor is a place in the characters of a document, with its line and its column. Lines end
at a line feed, at the next-line character, and at the line and paragraph separators; a
carriage return never reaches a cursor. The byte order mark takes no column.
-/

namespace Sentential.Yaml

/-- The characters that end a line. -/
def isBreak (c : Char) : Bool := c = '\n' || c = '\u0085' || c = '\u2028' || c = '\u2029'

/-- The line break as it counts inside a scalar: the next-line character is a line feed. -/
def foldedBreak (c : Char) : Char := if c = '\u0085' then '\n' else c

/-- A blank or a tab. -/
def isSpace (c : Char) : Bool := c = ' ' || c = '\t'

/-- A blank, a tab or a line break. -/
def isGap (c : Char) : Bool := isSpace c || isBreak c

/-- A gap or the end of the document comes next. -/
def gapNext : List Char → Bool
  | [] => true
  | c :: _ => isGap c

/-- A mark between documents comes next. -/
def markNext : List Char → Bool
  | '-' :: '-' :: '-' :: rest => gapNext rest
  | '.' :: '.' :: '.' :: rest => gapNext rest
  | _ => false

/-- The byte order mark. -/
def byteOrderMark : Char := '\uFEFF'

/-- A place in a document and what follows it. -/
structure Cursor where
  rest : List Char
  index : Nat
  line : Nat
  column : Nat
  deriving Repr

namespace Cursor

/-- The start of a document. A byte order mark in front is passed over. -/
def start (cs : List Char) : Cursor :=
  match cs with
  | c :: rest => if c = byteOrderMark then ⟨rest, 1, 0, 0⟩ else ⟨cs, 0, 0, 0⟩
  | [] => ⟨[], 0, 0, 0⟩

/-- The place after one character. -/
def next (c : Cursor) : Cursor :=
  match c.rest with
  | [] => c
  | x :: rest =>
    if isBreak x then ⟨rest, c.index + 1, c.line + 1, 0⟩
    else ⟨rest, c.index + 1, c.line, if x = byteOrderMark then c.column else c.column + 1⟩

/-- The place after `n` characters. -/
def skip (c : Cursor) : Nat → Cursor
  | 0 => c
  | n + 1 => c.next.skip n

/-- The characters from here on that satisfy `p`, and the place after them. -/
def span (c : Cursor) (p : Char → Bool) : List Char × Cursor :=
  let taken := c.rest.takeWhile p
  (taken, c.skip taken.length)

/-- The first character from here on is a line break. -/
def atBreak (c : Cursor) : Bool :=
  match c.rest with
  | x :: _ => isBreak x
  | [] => false

/-- A comment starts here. -/
def atComment (c : Cursor) : Bool := c.rest.head? == some '#'

end Cursor

end Sentential.Yaml
