import Sentential.Formula.Evaluation

/-!
# Infix and postfix

`toPostfix` reorders infix tokens into postfix with a stack of held operators and open
parentheses, and checks on the way that operands and operators alternate. `ofPostfix`
assembles the formula from postfix tokens with a stack of operands, where the arity of
each operator is checked, and `evaluatePostfix` runs the tokens on a stack of values.
Each of the three is a fold of a step function over the tokens.
-/

namespace Sentential

/-! ## From infix to postfix -/

/-- What waits for its place in the output: an open parenthesis or an operator. -/
inductive Held where
  | bracket (token : Token)
  | operator (token : Token) (op : Operator)
  deriving DecidableEq, Repr

namespace Held

/-- The token that is held. -/
def token : Held → Token
  | bracket t => t
  | operator t _ => t

/-- An open parenthesis is held. -/
def isBracket : Held → Bool
  | bracket _ => true
  | operator .. => false

/-- The held operator goes out before the operator `op` is held: it binds tighter, or as tightly
and `op` groups to the left. -/
def yieldsTo (op : Operator) : Held → Bool
  | bracket _ => false
  | operator _ top => top.precedence > op.precedence || (top.precedence == op.precedence && op.leftAssoc)

end Held

/-- The state between two infix tokens. -/
structure Reordering where
  /-- The postfix tokens so far. -/
  output : List Token
  /-- What is held, innermost first. -/
  held : List Held
  /-- An operand must come next. -/
  operandDue : Bool
  deriving DecidableEq, Repr

namespace Reordering

/-- The state before the first token. -/
def start : Reordering := ⟨[], [], true⟩

/-- Takes one infix token. -/
def step (s : Reordering) (t : Token) : Outcome Reordering :=
  match t.kind with
  | .name =>
    if s.operandDue then .ok { s with output := s.output ++ [t], operandDue := false }
    else .error (.fault (.misplaced .operator t))
  | .operator =>
    match t.operator? with
    | none => .error (.unknownOperator t.value)
    | some .not =>
      if s.operandDue then .ok { s with held := .operator t .not :: s.held }
      else .error (.fault (.misplaced .operator t))
    | some (.binary c) =>
      if s.operandDue then .error (.fault (.misplaced .operand t))
      else
        let out := s.held.takeWhile (Held.yieldsTo (.binary c))
        let kept := s.held.dropWhile (Held.yieldsTo (.binary c))
        .ok ⟨s.output ++ out.map Held.token, .operator t (.binary c) :: kept, true⟩
  | .opening =>
    if s.operandDue then .ok { s with held := .bracket t :: s.held }
    else .error (.fault (.misplaced .operator t))
  | .closing =>
    if s.operandDue then .error (.fault (.misplaced .operand t))
    else
      let out := s.held.takeWhile (!·.isBracket)
      match s.held.dropWhile (!·.isBracket) with
      | [] => .error (.fault (.unbalanced t.pos))
      | _ :: kept => .ok ⟨s.output ++ out.map Held.token, kept, false⟩

/-- Closes the state after the last token, which is `last?`. -/
def finish (s : Reordering) (last? : Option Token) : Outcome (List Token) :=
  if s.operandDue then
    match last? with
    | some t => .error (.fault (.endsEarly t))
    | none => .error (.fault .noOperands)
  else
    match s.held.find? Held.isBracket with
    | some h => .error (.fault (.unbalanced h.token.pos))
    | none => .ok (s.output ++ s.held.map Held.token)

end Reordering

/-- The postfix order of infix tokens; parentheses are consumed. -/
def toPostfix (ts : List Token) : Outcome (List Token) := do
  let s ← ts.foldlM Reordering.step .start
  s.finish ts.getLast?

/-! ## From postfix to a formula -/

namespace Formula

/-- Takes one postfix token onto a stack of operands, latest first. -/
def stack (operands : List Formula) (t : Token) : Outcome (List Formula) :=
  match t.kind with
  | .name => .ok (var t.value :: operands)
  | .operator =>
    match t.operator?, operands with
    | none, _ => .error (.unknownOperator t.value)
    | some .not, a :: rest => .ok (not a :: rest)
    | some (.binary c), r :: l :: rest => .ok (binary c l r :: rest)
    | some _, _ => .error (.fault (.missingOperand t))
  | _ => .error (.fault (.strayBracket t))

/-- The formula that postfix tokens assemble. -/
def ofPostfix (ts : List Token) : Outcome Formula := do
  match ← ts.foldlM stack [] with
  | [f] => .ok f
  | [] => .error (.fault .noOperands)
  | operands => .error (.fault (.leftover operands.length))

/-- The kinds and values of a formula's postfix tokens: operands first, left before right. -/
def postorder : Formula → List (Token.Kind × String)
  | var name => [(.name, name)]
  | not a => a.postorder ++ [(.operator, Operator.not.text)]
  | binary op l r => l.postorder ++ r.postorder ++ [(.operator, (Operator.binary op).text)]

end Formula

/-! ## Values of postfix tokens -/

/-- Takes one postfix token onto a stack of values, latest first. A token that is no name acts as
the operator whose symbol is its value, whatever its kind. -/
def stackValue (a : Assignment) (values : List Bool) (t : Token) : Outcome (List Bool) :=
  if t.kind = .name then
    match a.lookup t.value with
    | some b => .ok (b :: values)
    | none => .error (.fault (.unbound t.value))
  else
    match t.operator?, values with
    | some .not, x :: rest => .ok ((!x) :: rest)
    | some (.binary c), y :: x :: rest => .ok (c.apply x y :: rest)
    | _, _ => .error (.fault (.inapplicable t))

/-- The value of postfix tokens under an assignment. -/
def evaluatePostfix (ts : List Token) (a : Assignment) : Outcome Bool := do
  match ← ts.foldlM (stackValue a) [] with
  | [b] => .ok b
  | _ => .error (.fault .noSingleValue)

end Sentential
