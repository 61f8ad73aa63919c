import Sentential.Operator

/-!
# Tokens

A token is a variable name, an operator symbol or a parenthesis, with the position of its
first character. Tokens that come from text always carry a value that fits their kind. Tokens
that a caller assembles by hand may carry any value and any integer as position, and the
functions on tokens say what they do with a value that does not fit.
-/

namespace Sentential

/-- The lexical class of a token. -/
inductive Token.Kind where
  | name
  | operator
  | opening
  | closing
  deriving DecidableEq, Repr

/-- The word for the class in token listings and messages. -/
def Token.Kind.label : Token.Kind → String
  | name => "VARIABLE"
  | operator => "OPERATOR"
  | opening => "LPAREN"
  | closing => "RPAREN"

/-- The class with the given word. -/
def Token.Kind.ofLabel? (s : String) : Option Token.Kind :=
  [name, operator, opening, closing].find? (·.label == s)

/-- A lexical unit with its text and the position of its first character. -/
structure Token where
  kind : Token.Kind
  value : String
  pos : Int
  deriving DecidableEq, Repr

namespace Token

/-- The operator that an operator token stands for. -/
def operator? (t : Token) : Option Operator := Operator.ofSymbol? t.value

/-- Operator tokens of a canonical list carry a symbol of the operator table. -/
def Canonical (t : Token) : Prop := t.kind = .operator → t.operator?.isSome = true

instance (t : Token) : Decidable t.Canonical := by unfold Canonical; infer_instance

end Token

end Sentential
