import Databind.Expression.Parser
import Mathlib.Tactic.FinCases

/-!
# `Proofs.Grammar` — the grammar of operator expressions

Eight levels of binary operators that group to the left, prefix operators that bind tighter than all of them, and
numbers, fields and parenthesised expressions at the bottom. `Derives` says which lists of tokens belong to a level,
which tree each of them stands for, and how deep its prefix operators and parentheses are nested.

The grammar has a table of operators of its own. That the parser goes by the same levels is `mem_operatorsAt`, and that
it takes the same operators for prefixes is `unary?_eq_some_iff`.
-/

namespace Databind.Expression

/-- The binary operators of each level, loosest first. -/
def operatorsAt : Nat → List BinaryOp
  | 1 => [.or]
  | 2 => [.and]
  | 3 => [.bitOr]
  | 4 => [.bitAnd]
  | 5 => [.looseEq, .looseNe, .strictEq, .strictNe]
  | 6 => [.lt, .gt, .le, .ge]
  | 7 => [.add, .sub]
  | 8 => [.mul, .div, .rem]
  | _ => []

/-- The operators that may stand in front of an operand, each with what it stands for there. -/
def unaryOperators : List (Operator × UnaryOp) :=
  [(.not, .not), (.binary .sub, .neg), (.binary .add, .plus)]

/-- **The grammar.** Some tokens belong to a level and stand for a tree; prefix operators and parentheses are nested to
the given depth in them. Levels 1 to 8 are those of the binary operators, level 9 has the prefix operators, and level 10
the operands that need no parentheses anywhere. -/
inductive Derives : Nat → List Token → Tree → Nat → Prop
  | number {n} : Derives 10 [.number n] (.number n) 0
  | field {name} : Derives 10 [.field name] (.field name) 0
  | group {tokens tree nesting} (h : Derives 1 tokens tree nesting) :
    Derives 10 (.opening :: (tokens ++ [.closing])) tree (nesting + 1)
  | unary {operator op tokens tree nesting} (hop : (operator, op) ∈ unaryOperators)
    (h : Derives 9 tokens tree nesting) : Derives 9 (.op operator :: tokens) (.unary op tree) (nesting + 1)
  | binary {level op left right a b n k} (hop : op ∈ operatorsAt level) (hleft : Derives level left a n)
    (hright : Derives (level + 1) right b k) :
    Derives level (left ++ .op (.binary op) :: right) (.binary op a b) (max n k)
  | tighter {level tokens tree nesting} (h : Derives (level + 1) tokens tree nesting) :
    Derives level tokens tree nesting

/-! ## The tables -/

/-- An operator stands in the row of its level, and in no other. -/
theorem mem_operatorsAt {level : Nat} {op : BinaryOp} : op ∈ operatorsAt level ↔ op.level = level := by
  constructor
  · intro h
    unfold operatorsAt at h
    split at h <;> fin_cases h <;> rfl
  · rintro rfl
    cases op <;> decide

theorem unary?_eq_some_iff {operator : Operator} {op : UnaryOp} :
    (Token.op operator).unary? = some op ↔ (operator, op) ∈ unaryOperators := by
  constructor
  · intro h
    simp only [Token.unary?] at h
    unfold Operator.unary? at h
    split at h <;> cases h <;> decide
  · intro h
    fin_cases h <;> rfl

/-- Only operators stand in front of an operand. -/
theorem exists_of_unary? {token : Token} {op : UnaryOp} (h : token.unary? = some op) :
    ∃ operator, token = .op operator ∧ (operator, op) ∈ unaryOperators := by
  cases token with
  | op operator => exact ⟨operator, rfl, unary?_eq_some_iff.mp h⟩
  | _ => cases h

namespace Derives

variable {level level' nesting : Nat} {tokens : List Token} {tree : Tree}

/-- **What belongs to a level belongs to every looser one.** -/
theorem loosen (h : Derives level' tokens tree nesting) (hle : level ≤ level') :
    Derives level tokens tree nesting := by
  induction hle with
  | refl => exact h
  | step _ ih => exact ih h.tighter

/-- A phrase has at least one token. -/
theorem length_pos (h : Derives level tokens tree nesting) : 0 < tokens.length := by
  induction h with
  | tighter _ ih => exact ih
  | binary _ _ _ ih _ =>
    rw [List.length_append]
    exact Nat.add_pos_left ih _
  | _ => simp

end Derives

end Databind.Expression
