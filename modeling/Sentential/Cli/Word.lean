import Sentential.Text.Digit

/-!
# Words of a command line

A word of a command line is an option or not, by its look and by the options there are. Long
options may be shortened as long as only one of them fits, an option may carry its argument
behind an equals sign, and options of one letter may be joined. A word that looks like a
negative number or holds a blank is no option unless there is one like it.
-/

namespace Sentential.Cli

/-- What an option does. -/
inductive Role where
  /-- Asks for help. -/
  | help
  /-- Switches something on. -/
  | flag
  /-- Takes an argument, one of the choices if there are any. -/
  | argument (choices : List String)
  deriving DecidableEq, Repr

/-- An option with its names. -/
structure Switch where
  key : String
  names : List String
  role : Role
  deriving DecidableEq, Repr

/-- The option takes an argument. -/
def Switch.takesArgument (o : Switch) : Bool :=
  match o.role with
  | .argument _ => true
  | _ => false

/-- What stands behind the name of an option in the same word. -/
structure Attachment where
  /-- There is an equals sign before it. -/
  equals : Bool
  text : List Char
  deriving DecidableEq, Repr

/-- What a word of a command line is. -/
inductive Word where
  /-- The two dashes after which no word is an option. -/
  | separator
  | plain
  /-- It looks like an option, but there is none like it. -/
  | unknown
  | option (o : Switch) (name : List Char) (attached : Option Attachment)
  deriving DecidableEq, Repr

/-- The option of exactly this name. -/
def named? (switches : List Switch) (name : List Char) : Option Switch :=
  switches.find? fun o => o.names.contains (String.ofList name)

/-- The text before the first equals sign, and the text behind it. -/
def atEquals (cs : List Char) : List Char × Option (List Char) :=
  match cs.dropWhile (· ≠ '=') with
  | _ :: rest => (cs.takeWhile (· ≠ '='), some rest)
  | [] => (cs, none)

/-- The readings of a word as an option of each name. -/
def readings (o : Switch) (cs : List Char) (name : List Char) : List Word :=
  match cs with
  | '-' :: '-' :: _ =>
    let (start, text) := atEquals cs
    if start.isPrefixOf name then [.option o name (text.map fun t => ⟨true, t⟩)] else []
  | _ =>
    if name = cs.take 2 then [.option o name (some ⟨false, cs.drop 2⟩)]
    else if cs.isPrefixOf name then [.option o name none]
    else []

/-- The characters are decimal digits, at least one. -/
def isDigits (cs : List Char) : Bool := !cs.isEmpty && cs.all fun c => (Text.digit? c).isSome

/-- The rest of a word behind its dash looks like a number. A line feed may end it. -/
def isNumber (cs : List Char) : Bool :=
  let cs := if cs.getLast? = some '\n' then cs.dropLast else cs
  isDigits cs ||
    match cs.dropWhile fun c => (Text.digit? c).isSome with
    | '.' :: fraction => isDigits fraction
    | _ => false

/-- What a word is; nothing if several options fit it. -/
def classify (switches : List Switch) (cs : List Char) : Option Word :=
  match cs with
  | '-' :: c :: rest =>
    match named? switches cs with
    | some o => some (.option o cs none)
    | none =>
      let exact := match atEquals cs with
        | (name, some text) => (named? switches name).map fun o => Word.option o name (some ⟨true, text⟩)
        | _ => none
      match exact with
      | some w => some w
      | none =>
        match switches.flatMap fun o => o.names.flatMap fun name => readings o cs name.toList with
        | [w] => some w
        | _ :: _ :: _ => none
        | [] => if isNumber (c :: rest) || cs.contains ' ' then some .plain else some .unknown
  | _ => some .plain

/-- The words of a command line. Behind the separator all words are plain. -/
def words (switches : List Switch) : List String → Option (List (String × Word))
  | [] => some []
  | s :: rest =>
    if s = "--" then some ((s, .separator) :: rest.map fun t => (t, .plain))
    else do
      let w ← classify switches s.toList
      let ws ← words switches rest
      return (s, w) :: ws

end Sentential.Cli
