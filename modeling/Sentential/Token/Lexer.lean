import Sentential.Bracket
import Sentential.Failure
import Sentential.Text.Letter
import Sentential.Text.Blank

/-!
# Tokens of a normalized text

A maximal run of letters is one name token and must be declared. Each canonical operator and
each parenthesis is a token of one character, blanks separate tokens, and nothing else
may occur. Brackets are checked over the whole text before any token is read, and
of the other faults the leftmost is reported.
-/

namespace Sentential.Token

/-- The token kind of an operator symbol or a parenthesis. -/
def symbolKind? (c : Char) : Option Kind :=
  if (Operator.ofChar? c).isSome then some .operator
  else if c = '(' then some .opening
  else if c = ')' then some .closing
  else none

/-- Reads tokens from position `pos`; `inRun` says that the text before it ends in a letter. -/
def scan (declared : List String) (inRun : Bool) (pos : Nat) : List Char → Outcome (List Token)
  | [] => .ok []
  | c :: cs =>
    if Text.isBlank c then scan declared false (pos + 1) cs
    else if Text.isLetter c then
      if inRun then scan declared true (pos + 1) cs
      else
        let name := String.ofList (c :: cs.takeWhile Text.isLetter)
        if name ∈ declared then (⟨.name, name, pos⟩ :: ·) <$> scan declared true (pos + 1) cs
        else .error (.fault (.undeclared name pos))
    else
      match symbolKind? c with
      | some kind => (⟨kind, String.ofList [c], pos⟩ :: ·) <$> scan declared false (pos + 1) cs
      | none => .error (.fault (.invalidCharacter c pos))

/-- Refuses a text with a bracket that has no partner. -/
def checkBalanced (cs : List Char) : Outcome Unit :=
  match Bracket.firstUnbalanced cs with
  | some pos => .error (.fault (.unbalanced pos))
  | none => .ok ()

/-- The tokens of a normalized text over the declared names. -/
def tokenize (cs : List Char) (declared : List String) : Outcome (List Token) := do
  checkBalanced cs
  scan declared false 0 cs

end Sentential.Token
