import Sentential.Postfix
import Sentential.Spelling
import Sentential.Token.Lexer

/-!
# Reading a formula

`parse` takes a text through all stages: aliases are normalized, the normalized text is cut
into tokens over the declared names, the tokens are put into postfix order, and the
formula is assembled from them. Positions in faults count in the normalized text.
-/

namespace Sentential

/-- What reading one text produces, stage by stage. -/
structure Parsed where
  source : String
  normalized : String
  tokens : List Token
  postfixTokens : List Token
  formula : Formula
  deriving DecidableEq, Repr

/-- The tokens of a text and their postfix order, over the declared names. -/
def postfixOf (source : String) (declared : List String) : Outcome (List Token × List Token) := do
  if Text.isBlankText source then throw (.fault .emptyExpression)
  let tokens ← Token.tokenize (Spelling.normalize source.toList) declared
  let ordered ← toPostfix tokens
  return (tokens, ordered)

/-- Reads a formula over the declared names. -/
def parse (source : String) (declared : List String) : Outcome Parsed := do
  let (tokens, ordered) ← postfixOf source declared
  let formula ← Formula.ofPostfix ordered
  return ⟨source, Spelling.normalized source, tokens, ordered, formula⟩

end Sentential
