import Sentential.Text.Quoted
import Sentential.Token

/-!
# Faults of a request

Every stage stops at the first thing wrong with its input. A `Fault` is the cause, with the
data that its report shows: a kind, a message, and where there is one the offending text and
its position in the normalized expression.
-/

namespace Sentential

/-- The categories of faults. -/
inductive Fault.Kind where
  | emptyExpression
  | noVariablesDeclared
  | tooManyVariables
  | duplicateVariable
  | invalidVariableName
  | unbalancedParentheses
  | invalidCharacter
  | unknownVariable
  | unboundVariable
  | malformedExpression
  | unrecognizedStructure
  deriving DecidableEq, Repr

/-- The word for the category in reports. -/
def Fault.Kind.label : Fault.Kind → String
  | emptyExpression => "EmptyExpression"
  | noVariablesDeclared => "NoVariablesDeclared"
  | tooManyVariables => "TooManyVariables"
  | duplicateVariable => "DuplicateVariable"
  | invalidVariableName => "InvalidVariableName"
  | unbalancedParentheses => "UnbalancedParentheses"
  | invalidCharacter => "InvalidCharacter"
  | unknownVariable => "UnknownVariable"
  | unboundVariable => "UnboundVariable"
  | malformedExpression => "MalformedExpression"
  | unrecognizedStructure => "UnrecognizedStructure"

/-- What may stand next in an infix formula. -/
inductive Expected where
  | operand
  | operator
  deriving DecidableEq, Repr

/-- The words for what is expected, in messages. -/
def Expected.words : Expected → String
  | operand => "an operand"
  | operator => "an operator"

/-- Why a request is refused. -/
inductive Fault where
  /-- The expression holds nothing but blanks. -/
  | emptyExpression
  /-- The list of variables is empty. -/
  | noVariables
  /-- More variables are declared than the ceiling allows. -/
  | tooManyVariables (count : Nat) (maximum : Int)
  /-- A name is declared a second time. -/
  | repeatedVariable (name : String)
  /-- A name of one letter occurs inside another declared name. -/
  | containedVariable (name within : String)
  /-- A declared name is no word. -/
  | invalidName (name : String)
  /-- The bracket at this position breaks the balance. -/
  | unbalanced (position : Int)
  /-- A character that no token holds. -/
  | invalidCharacter (c : Char) (position : Nat)
  /-- A run of letters that is no declared name. -/
  | undeclared (name : String) (position : Nat)
  /-- Evaluation met a variable without a value. -/
  | unbound (name : String)
  /-- An infix token where the other sort was due. -/
  | misplaced (expected : Expected) (found : Token)
  /-- The infix tokens end where an operand is due. -/
  | endsEarly (last : Token)
  /-- There is no operand at all. -/
  | noOperands
  /-- A parenthesis among postfix tokens. -/
  | strayBracket (found : Token)
  /-- A postfix operator with too few operands before it. -/
  | missingOperand (found : Token)
  /-- Postfix tokens that leave several operands. -/
  | leftover (count : Nat)
  /-- A postfix token that evaluation cannot apply. -/
  | inapplicable (found : Token)
  /-- Postfix evaluation ends without exactly one value. -/
  | noSingleValue
  /-- Evaluation met something that is no formula. -/
  | notEvaluable
  /-- Expressing conditionals met something that is no formula. -/
  | notExpressible
  /-- Gate building met a text where a formula belongs. -/
  | noGate (found : String)
  deriving DecidableEq, Repr

namespace Fault

/-- The category of a fault. -/
def kind : Fault → Kind
  | emptyExpression => .emptyExpression
  | noVariables => .noVariablesDeclared
  | tooManyVariables .. => .tooManyVariables
  | repeatedVariable _ => .duplicateVariable
  | containedVariable .. => .duplicateVariable
  | invalidName _ => .invalidVariableName
  | unbalanced _ => .unbalancedParentheses
  | invalidCharacter .. => .invalidCharacter
  | undeclared .. => .unknownVariable
  | unbound _ => .unboundVariable
  | misplaced .. => .malformedExpression
  | endsEarly _ => .malformedExpression
  | noOperands => .malformedExpression
  | strayBracket _ => .malformedExpression
  | missingOperand _ => .malformedExpression
  | leftover _ => .malformedExpression
  | inapplicable _ => .malformedExpression
  | noSingleValue => .malformedExpression
  | notEvaluable => .unrecognizedStructure
  | notExpressible => .unrecognizedStructure
  | noGate _ => .unrecognizedStructure

/-- The sentence that reports a fault. -/
def message : Fault → String
  | emptyExpression => "expression is empty"
  | noVariables => "at least one variable must be declared"
  | tooManyVariables count maximum =>
    toString count ++ " variables declared, the maximum is " ++ toString maximum
  | repeatedVariable name => "variable declared more than once: " ++ name
  | containedVariable name within => "variable " ++ name ++ " is also a letter of declared variable " ++ within
  | invalidName name => "variable names must consist of letters only: " ++ Text.quoted name
  | unbalanced _ => "unbalanced parentheses or braces in expression"
  | invalidCharacter c position =>
    "invalid character " ++ Text.quoted (String.ofList [c]) ++ " at position " ++ toString position
  | undeclared name _ => "undeclared variable: " ++ name
  | unbound name => "no value assigned to variable: " ++ name
  | misplaced expected found =>
    "expected " ++ expected.words ++ " at position " ++ toString found.pos ++ ", found " ++ Text.quoted found.value
  | endsEarly last =>
    "expression ends with " ++ Text.quoted last.value ++ " at position " ++ toString last.pos ++
      "; an operand is missing"
  | noOperands => "expression has no operands"
  | strayBracket found => "unexpected " ++ found.kind.label ++ " in postfix sequence"
  | missingOperand found =>
    "operator " ++ Text.quoted found.value ++ " at position " ++ toString found.pos ++ " is missing an operand"
  | leftover count =>
    "expression does not reduce to a single value (" ++ toString count ++ " operands left without an operator)"
  | inapplicable found => "cannot apply " ++ Text.quoted found.value ++ " at position " ++ toString found.pos
  | noSingleValue => "postfix sequence does not reduce to a single value"
  | notEvaluable => "cannot evaluate node of type str"
  | notExpressible => "cannot rewrite node of type str"
  | noGate found => "no gate for node " ++ Text.quoted found

/-- The offending text, where there is one. -/
def token : Fault → Option String
  | repeatedVariable name => some name
  | containedVariable name _ => some name
  | invalidName name => some name
  | invalidCharacter c _ => some (String.ofList [c])
  | undeclared name _ => some name
  | unbound name => some name
  | misplaced _ found => some found.value
  | endsEarly last => some last.value
  | strayBracket found => some found.value
  | missingOperand found => some found.value
  | inapplicable found => some found.value
  | _ => none

/-- The position of the offending text, where there is one. -/
def position : Fault → Option Int
  | unbalanced position => some position
  | invalidCharacter _ position => some position
  | undeclared _ position => some position
  | misplaced _ found => some found.pos
  | endsEarly last => some last.pos
  | strayBracket found => some found.pos
  | missingOperand found => some found.pos
  | inapplicable found => some found.pos
  | _ => none

/-- The fault in one line: its category in brackets and its message. -/
def line (f : Fault) : String := "[" ++ f.kind.label ++ "] " ++ f.message

end Fault

end Sentential
