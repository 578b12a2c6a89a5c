import Databind.Expression.Operator
import Databind.Fields

/-!
# `Expression.Tree` — operator expressions as trees

An expression tree has numbers and field reads at its leaves. Evaluation reads the fields of one record;
an absent field counts as the empty text. `Tree.height` counts levels, a leaf having one.
-/

namespace Databind.Expression

/-- An operator expression. -/
inductive Tree where
  | number (n : Number)
  | field (name : String)
  | unary (op : UnaryOp) (operand : Tree)
  | binary (op : BinaryOp) (left right : Tree)
deriving DecidableEq

namespace Tree

/-- The number of levels. -/
def height : Tree → Nat
  | number _ => 1
  | field _ => 1
  | unary _ operand => operand.height + 1
  | binary _ left right => max left.height right.height + 1

/-- The value on a record's fields. -/
def evaluate (fields : Fields) : Tree → Value
  | number n => .number n
  | field name => if fields.has name then fields.get name else .string ""
  | unary op operand => op.apply (operand.evaluate fields)
  | binary op left right => op.apply (left.evaluate fields) (right.evaluate fields)

/-- The names of the fields an expression reads, from left to right. -/
def fieldNames : Tree → List String
  | number _ => []
  | field name => [name]
  | unary _ operand => operand.fieldNames
  | binary _ left right => left.fieldNames ++ right.fieldNames

end Tree

end Databind.Expression
