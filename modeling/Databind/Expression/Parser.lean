import Databind.Expression.Token
import Databind.Expression.Tree

/-!
# `Expression.Parser` — from tokens to expression trees

Precedence climbing. `climb nest level` reads an operand and then every binary operator that binds
tighter than `level`, with its right operand; `operand nest` reads prefix operators, a leaf or a
parenthesised expression. Two limits hold, both `maxNesting`: how many prefix operators and
parentheses are open at once (`nest` counts what is left), and how high a tree may grow.

The functions end because a nested call has less nesting left or a tighter level, and the operators of
one level are counted by the tokens that are left.
-/

namespace Databind.Expression

/-- The greatest height of an expression tree, and the greatest number of open prefix operators and
parentheses. -/
def maxNesting : Nat := 64

/-- Why a list of tokens is not an expression. -/
inductive ParseError where
  | malformed (fault : Fault)
  | tooDeep
deriving DecidableEq

/-- A tree that may still be too high. -/
def Tree.checked (tree : Tree) : Except ParseError Tree :=
  if tree.height ≤ maxNesting then .ok tree else .error .tooDeep

/-- The unary operator a token stands for in front of an operand. -/
def Token.unary? : Token → Option UnaryOp
  | .op operator => operator.unary?
  | _ => none

mutual

/-- A prefix operator with its operand, a leaf, or a parenthesised expression. -/
def operand (nest : Nat) (tokens : List Token) : Except ParseError (Tree × List Token) :=
  match tokens with
  | [] => .error (.malformed .unexpectedEnd)
  | token :: rest =>
    match token.unary? with
    | some op =>
      match nest with
      | 0 => .error .tooDeep
      | nest + 1 => do
        let (tree, rest) ← operand nest rest
        let tree ← (Tree.unary op tree).checked
        .ok (tree, rest)
    | none =>
      match token with
      | .number n => .ok (.number n, rest)
      | .field name => .ok (.field name, rest)
      | .closing => .error (.malformed .unexpectedClosing)
      | .op operator => .error (.malformed (.unexpectedOperator operator))
      | .opening =>
        match nest with
        | 0 => .error .tooDeep
        | nest + 1 => do
          let (tree, rest) ← climb nest 0 rest
          match rest with
          | .closing :: rest => .ok (tree, rest)
          | _ => .error (.malformed .missingClosing)
termination_by (nest, 0, 0, 0)

/-- An operand, and every operator tighter than `level` with its right operand. -/
def climb (nest level : Nat) (tokens : List Token) : Except ParseError (Tree × List Token) := do
  let (left, rest) ← operand nest tokens
  extend nest level rest.length left rest
termination_by (nest, 9 - level + 1, 1, 0)

/-- The operators tighter than `level` that follow a left operand, at most `count` of them. -/
def extend (nest level count : Nat) (left : Tree) (tokens : List Token) :
    Except ParseError (Tree × List Token) :=
  match count, tokens with
  | count + 1, .op (.binary op) :: rest =>
    if _loose : op.level ≤ level then .ok (left, tokens)
    else do
      let (right, rest) ← climb nest op.level rest
      let tree ← (Tree.binary op left right).checked
      extend nest level count tree rest
  | _ + 1, .op .not :: _ => .error (.malformed (.notBinary .not))
  | _, _ => .ok (left, tokens)
termination_by (nest, 9 - level + 1, 0, count)
decreasing_by
  · have := op.level_le
    exact .right _ (.left _ _ (by omega))
  · exact .right _ (.right _ (.right _ (by omega)))

end

/-- The tree of a complete list of tokens. -/
def Tree.ofTokens? (tokens : List Token) : Except ParseError Tree := do
  let (tree, rest) ← climb maxNesting 0 tokens
  match rest with
  | [] => .ok tree
  | token :: _ => .error (.malformed (.trailing token))

end Databind.Expression
