import Sentential.Grammar
import Sentential.Postfix

/-!
# Levels of binding and precedence

The operator table orders the operators by a number and a side; the grammar orders them by
levels. Here the two are tied together. Each operator forms formulas of one level, a connective
takes its first operand from one level and any operator its last operand from one level.
`yieldsTo_iff` and `stays_iff` say what the comparison of precedences decides: a held operator
goes out before a connective exactly if what it forms may be the first operand of the
connective, and it stays exactly if what the connective forms may be its last operand. That the
conditional and the biconditional share one precedence is settled by these two facts alone.
-/

namespace Sentential

/-- The place of a level in the order of binding, loosest first. -/
def Grammar.Level.rank : Grammar.Level → Nat
  | equivalence => 0
  | conditional => 1
  | disjunction => 2
  | conjunction => 3
  | negation => 4
  | primary => 5

/-- The level of the formulas that an operator forms. -/
def Operator.level : Operator → Grammar.Level
  | not => .negation
  | binary .and => .conjunction
  | binary .or => .disjunction
  | binary .xor => .disjunction
  | binary .implies => .conditional
  | binary .iff => .equivalence

/-- The level of the last operand of an operator. -/
def Operator.operandLevel : Operator → Grammar.Level
  | not => .negation
  | binary .and => .negation
  | binary .or => .conjunction
  | binary .xor => .conjunction
  | binary .implies => .conditional
  | binary .iff => .conditional

theorem Operator.operandLevel_rank_le (op : Operator) :
    op.operandLevel.rank ≤ Grammar.Level.negation.rank := by
  cases op with
  | not => decide
  | binary c => cases c <;> decide

/-- The level of the first operand of a connective. -/
def Connective.firstLevel : Connective → Grammar.Level
  | and => .conjunction
  | or => .disjunction
  | xor => .disjunction
  | implies => .disjunction
  | iff => .equivalence

namespace Held

/-- A held operator goes out before a connective exactly if what it forms may be the first operand
of the connective. -/
theorem yieldsTo_iff (t : Token) (op : Operator) (c : Connective) :
    (operator t op).yieldsTo (.binary c) = true ↔ c.firstLevel.rank ≤ op.level.rank := by
  simp only [yieldsTo]
  cases op with
  | not => cases c <;> decide
  | binary d => cases c <;> cases d <;> decide

/-- A held operator stays below a connective exactly if what the connective forms may be its last
operand. -/
theorem stays_iff (t : Token) (op : Operator) (c : Connective) :
    (operator t op).yieldsTo (.binary c) = false ↔
      op.operandLevel.rank ≤ (Operator.binary c).level.rank := by
  simp only [yieldsTo]
  cases op with
  | not => cases c <;> decide
  | binary d => cases c <;> cases d <;> decide

end Held

namespace Grammar

theorem Level.rank_injective {k l : Level} (h : k.rank = l.rank) : k = l := by
  revert h
  cases k <;> cases l <;> decide

/-- A formula of one level counts as a formula of each looser one. -/
theorem Derives.loosen {k l : Level} {ts : List Token} {f : Formula} (h : Derives k ts f)
    (hl : l.rank ≤ k.rank) : Derives l ts f := by
  rcases Nat.lt_or_eq_of_le hl with hlt | heq
  · cases k with
    | equivalence => exact absurd hlt (Nat.not_lt_zero _)
    | conditional => exact (Derives.ofConditional h).loosen (Nat.le_of_lt_succ hlt)
    | disjunction => exact (Derives.ofDisjunction h).loosen (Nat.le_of_lt_succ hlt)
    | conjunction => exact (Derives.ofConjunction h).loosen (Nat.le_of_lt_succ hlt)
    | negation => exact (Derives.ofNegation h).loosen (Nat.le_of_lt_succ hlt)
    | primary => exact (Derives.ofPrimary h).loosen (Nat.le_of_lt_succ hlt)
  · exact Level.rank_injective heq ▸ h
termination_by k.rank
decreasing_by all_goals subst_vars; decide

/-- A connective between operands of its levels forms a formula of its level. -/
theorem Derives.binary {c : Connective} {ls rs : List Token} {t : Token} {l r : Formula}
    (hl : Derives c.firstLevel ls l) (ht : IsOperator (.binary c) t)
    (hr : Derives (Operator.binary c).operandLevel rs r) :
    Derives (Operator.binary c).level (ls ++ t :: rs) (.binary c l r) := by
  cases c with
  | and => exact .and hl ht hr
  | or => exact .or hl ht hr
  | xor => exact .xor hl ht hr
  | implies => exact .implies hl ht hr
  | iff => exact .iff hl ht hr

/-- Induction over a derivation by levels: the productions of all connectives are one case, and the
steps from a level to the next one are another. -/
@[elab_as_elim]
theorem Derives.byLevels {motive : ∀ l ts f, Derives l ts f → Prop}
    (binary : ∀ {c ls rs t l r} (hl : Derives c.firstLevel ls l) (ht : IsOperator (.binary c) t)
      (hr : Derives (Operator.binary c).operandLevel rs r), motive _ _ _ hl → motive _ _ _ hr →
      motive _ _ _ (Derives.binary hl ht hr))
    (loosen : ∀ {k l : Level} {ts f} (h : Derives k ts f) (hl : l.rank ≤ k.rank), motive _ _ _ h →
      motive _ _ _ (h.loosen hl))
    (not : ∀ {t ts f} (ht : IsOperator .not t) (h : Derives .negation ts f), motive _ _ _ h →
      motive _ _ _ (Derives.not ht h))
    (name : ∀ {t : Token} (ht : t.kind = .name), motive _ _ _ (Derives.name ht))
    (group : ∀ {ts f} {o c : Token} (ho : o.kind = .opening) (h : Derives .equivalence ts f)
      (hc : c.kind = .closing), motive _ _ _ h → motive _ _ _ (Derives.group ho h hc))
    {l : Level} {ts : List Token} {f : Formula} (h : Derives l ts f) : motive l ts f h := by
  induction h with
  | iff hl ht hr ihl ihr => exact binary (c := .iff) hl ht hr ihl ihr
  | ofConditional h ih => exact loosen h (by decide) ih
  | implies hl ht hr ihl ihr => exact binary (c := .implies) hl ht hr ihl ihr
  | ofDisjunction h ih => exact loosen h (by decide) ih
  | or hl ht hr ihl ihr => exact binary (c := .or) hl ht hr ihl ihr
  | xor hl ht hr ihl ihr => exact binary (c := .xor) hl ht hr ihl ihr
  | ofConjunction h ih => exact loosen h (by decide) ih
  | and hl ht hr ihl ihr => exact binary (c := .and) hl ht hr ihl ihr
  | ofNegation h ih => exact loosen h (by decide) ih
  | not ht h ih => exact not ht h ih
  | ofPrimary h ih => exact loosen h (by decide) ih
  | name ht => exact name ht
  | group ho h hc ih => exact group ho h hc ih

end Grammar

end Sentential
