import Sentential.Formula.Basic
import Sentential.Token

/-!
# The infix grammar

`Derives` is the language of infix formulas as a grammar with one level per strength of
binding. A chain of the biconditional, of disjunction and exclusive or, or of conjunction
grows on the left; a chain of the conditional grows on the right and stands
inside the biconditional. Negation takes the nearest negation or primary, and a primary
is a name or a parenthesised formula.
-/

namespace Sentential.Grammar

/-- The levels of binding, loosest first. -/
inductive Level where
  | equivalence
  | conditional
  | disjunction
  | conjunction
  | negation
  | primary
  deriving DecidableEq, Repr

/-- The token stands for the operator `op`. -/
def IsOperator (op : Operator) (t : Token) : Prop := t.kind = .operator ∧ t.operator? = some op

/-- The tokens form the formula at the given level. -/
inductive Derives : Level → List Token → Formula → Prop
  | iff {ls rs : List Token} {t : Token} {l r : Formula} (hl : Derives .equivalence ls l)
      (ht : IsOperator (.binary .iff) t) (hr : Derives .conditional rs r) :
      Derives .equivalence (ls ++ t :: rs) (.binary .iff l r)
  | ofConditional {ts : List Token} {f : Formula} (h : Derives .conditional ts f) :
      Derives .equivalence ts f
  | implies {ls rs : List Token} {t : Token} {l r : Formula} (hl : Derives .disjunction ls l)
      (ht : IsOperator (.binary .implies) t) (hr : Derives .conditional rs r) :
      Derives .conditional (ls ++ t :: rs) (.binary .implies l r)
  | ofDisjunction {ts : List Token} {f : Formula} (h : Derives .disjunction ts f) :
      Derives .conditional ts f
  | or {ls rs : List Token} {t : Token} {l r : Formula} (hl : Derives .disjunction ls l)
      (ht : IsOperator (.binary .or) t) (hr : Derives .conjunction rs r) :
      Derives .disjunction (ls ++ t :: rs) (.binary .or l r)
  | xor {ls rs : List Token} {t : Token} {l r : Formula} (hl : Derives .disjunction ls l)
      (ht : IsOperator (.binary .xor) t) (hr : Derives .conjunction rs r) :
      Derives .disjunction (ls ++ t :: rs) (.binary .xor l r)
  | ofConjunction {ts : List Token} {f : Formula} (h : Derives .conjunction ts f) :
      Derives .disjunction ts f
  | and {ls rs : List Token} {t : Token} {l r : Formula} (hl : Derives .conjunction ls l)
      (ht : IsOperator (.binary .and) t) (hr : Derives .negation rs r) :
      Derives .conjunction (ls ++ t :: rs) (.binary .and l r)
  | ofNegation {ts : List Token} {f : Formula} (h : Derives .negation ts f) :
      Derives .conjunction ts f
  | not {ts : List Token} {t : Token} {f : Formula} (ht : IsOperator .not t)
      (h : Derives .negation ts f) : Derives .negation (t :: ts) (.not f)
  | ofPrimary {ts : List Token} {f : Formula} (h : Derives .primary ts f) :
      Derives .negation ts f
  | name {t : Token} (ht : t.kind = .name) : Derives .primary [t] (.var t.value)
  | group {ts : List Token} {o c : Token} {f : Formula} (ho : o.kind = .opening)
      (hf : Derives .equivalence ts f) (hc : c.kind = .closing) :
      Derives .primary (o :: (ts ++ [c])) f

end Sentential.Grammar
