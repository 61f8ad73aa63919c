import Sentential.Cli.Word
import Sentential.TruthTable.Render

/-!
# Reading a command line

The options in front of the command are for the program, and the words behind it are for the
command, which has options and one expression of its own. Reading stops at the first
request for help and at the first misuse; a word that is no use to anybody is a misuse only
when everything else has been read.
-/

namespace Sentential.Cli

/-- Why a command line is not carried out. -/
inductive Stop where
  | help
  | misuse
  | noCommand
  deriving DecidableEq, Repr

/-- The exit code that goes with it. -/
def Stop.exit : Stop → Nat
  | help => 0
  | misuse => 2
  | noCommand => 1

/-- What the words give: the word that is no option, the options with their arguments, the words
behind a command, and whether there are words too many. -/
structure Given where
  positional : Option String := none
  chosen : List (String × String) := []
  rest : List String := []
  excess : Bool := false
  deriving DecidableEq, Repr

namespace Given

/-- The option is given. -/
def has (g : Given) (key : String) : Bool := g.chosen.any (·.1 == key)

/-- The argument of an option, the last one if it is repeated. -/
def argument? (g : Given) (key : String) : Option String := g.chosen.reverse.lookup key

/-- With an option that has no argument. -/
def choose (g : Given) (o : Switch) : Except Stop Given :=
  match o.role with
  | .help => .error .help
  | _ => .ok { g with chosen := g.chosen ++ [(o.key, "")] }

/-- With an option and its argument. -/
def chooseArgument (g : Given) (o : Switch) (s : String) : Except Stop Given :=
  match o.role with
  | .argument choices =>
    if choices.isEmpty || choices.contains s then .ok { g with chosen := g.chosen ++ [(o.key, s)] }
    else .error .misuse
  | _ => .error .misuse

end Given

/-- The options that are joined behind an option of one letter, and whether something unknown follows
them. Neither a dash nor an equals sign may stand among them. -/
def joined? (switches : List Switch) : List Char → Option (List Switch × Bool)
  | [] => some ([], false)
  | c :: cs =>
    if c = '-' ∨ c = '=' then none
    else
      match named? switches ['-', c] with
      | some o => (joined? switches cs).map fun (os, unknown) => (o :: os, unknown)
      | none => some ([], true)

/-- With an option that has something attached to its name. -/
def Given.attach (g : Given) (switches : List Switch) (o : Switch) (name : List Char) (a : Attachment) :
    Except Stop Given :=
  if o.takesArgument then g.chooseArgument o (String.ofList a.text)
  else if a.equals || a.text.isEmpty || name.take 2 == ['-', '-'] then .error .misuse
  else
    match joined? switches a.text with
    | some (os, unknown) => do
      let g ← (o :: os).foldlM Given.choose g
      return { g with excess := g.excess || unknown }
    | none => .error .misuse

/-- Reads the words one after the other. In front of a command the first plain word ends the reading. -/
def readWords (switches : List Switch) (command : Bool) : List (String × Word) → Given → Except Stop Given
  | [], g => .ok g
  | (s, .plain) :: ws, g =>
    if g.positional.isSome then readWords switches command ws { g with excess := true }
    else if command then .ok { g with positional := some s, rest := ws.map Prod.fst }
    else
      match ws with
      | (_, .separator) :: ws => readWords switches command ws { g with positional := some s }
      | ws => readWords switches command ws { g with positional := some s }
  | (_, .separator) :: ws, g =>
    if command then .error .misuse
    else
      match g.positional, ws with
      | none, (s, .plain) :: ws => readWords switches command ws { g with positional := some s }
      | _, ws => readWords switches command ws { g with excess := true }
  | (_, .unknown) :: ws, g => readWords switches command ws { g with excess := true }
  | (_, .option o name attached) :: ws, g =>
    match attached with
    | some a => do readWords switches command ws (← g.attach switches o name a)
    | none =>
      if o.takesArgument then
        match ws with
        | (s, .plain) :: ws => do readWords switches command ws (← g.chooseArgument o s)
        | _ => .error .misuse
      else do readWords switches command ws (← g.choose o)

/-- Reads a list of words. -/
def read (switches : List Switch) (command : Bool) (args : List String) : Except Stop Given :=
  match words switches args with
  | some ws => readWords switches command ws { }
  | none => .error .misuse

/-! ## Options -/

/-- The request for help. -/
def helpSwitch : Switch := ⟨"help", ["-h", "--help"], .help⟩

/-- The option for the settings file. -/
def configSwitch : Switch := ⟨"config", ["--config"], .argument []⟩

/-- The option for the whole log. -/
def verboseSwitch : Switch := ⟨"verbose", ["-v", "--verbose"], .flag⟩

/-- The option for errors alone. -/
def quietSwitch : Switch := ⟨"quiet", ["-q", "--quiet"], .flag⟩

/-- The option for the declared variables. -/
def varsSwitch : Switch := ⟨"vars", ["--vars"], .argument []⟩

/-- The option for output as a report. -/
def jsonSwitch : Switch := ⟨"json", ["--json"], .flag⟩

/-- The option for step columns. -/
def stepsSwitch : Switch := ⟨"steps", ["--steps"], .flag⟩

/-- The option for the output style. -/
def styleSwitch : Switch := ⟨"style", ["--style"], .argument (Style.all.map Style.name)⟩

/-- The options of the program. -/
def programSwitches : List Switch := [helpSwitch, configSwitch, verboseSwitch, quietSwitch]

/-- The options of a command that evaluates an expression. -/
def querySwitches : List Switch := [helpSwitch, varsSwitch, jsonSwitch]

/-- The options of a table. -/
def tableSwitches : List Switch := querySwitches ++ [stepsSwitch, styleSwitch]

/-! ## Commands -/

/-- An expression over the declared variables, and whether the answer is a report. -/
structure Query where
  expression : String
  names : String
  json : Bool
  deriving DecidableEq, Repr

/-- A command. -/
inductive Command where
  | table (q : Query) (steps : Bool) (style : Option Style)
  | classify (q : Query)
  | gates (q : Query)
  | normalize (expression : String)
  deriving DecidableEq, Repr

/-- A command with the options of the program. -/
structure Invocation where
  config : Option String
  verbose : Bool
  quiet : Bool
  command : Command
  deriving DecidableEq, Repr

/-- The expression of a command, which must be given. -/
def Given.expression (g : Given) : Except Stop String :=
  match g.positional with
  | some s => .ok s
  | none => .error .misuse

/-- The query of a command, whose variables must be declared. -/
def Given.query (g : Given) : Except Stop Query := do
  let expression ← g.expression
  match g.argument? varsSwitch.key with
  | some names => return ⟨expression, names, g.has jsonSwitch.key⟩
  | none => throw .misuse

/-- The command of a name with its words, and whether there are words too many. -/
def readCommand (name : String) (args : List String) : Except Stop (Command × Bool) := do
  match name with
  | "table" =>
    let g ← read tableSwitches false args
    let q ← g.query
    return (.table q (g.has stepsSwitch.key) ((g.argument? styleSwitch.key).bind Style.ofName?), g.excess)
  | "classify" =>
    let g ← read querySwitches false args
    return (.classify (← g.query), g.excess)
  | "gates" =>
    let g ← read querySwitches false args
    return (.gates (← g.query), g.excess)
  | "normalize" =>
    let g ← read [helpSwitch] false args
    return (.normalize (← g.expression), g.excess)
  | _ => throw .misuse

/-- The invocation that a command line asks for. -/
def Invocation.ofArguments (args : List String) : Except Stop Invocation := do
  let g ← read programSwitches true args
  match g.positional with
  | none => throw (if g.excess then .misuse else .noCommand)
  | some name =>
    let (command, excess) ← readCommand name g.rest
    if g.excess || excess then throw .misuse
    return ⟨g.argument? configSwitch.key, g.has verboseSwitch.key, g.has quietSwitch.key, command⟩

end Sentential.Cli
