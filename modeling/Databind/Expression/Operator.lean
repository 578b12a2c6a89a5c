import Databind.Value

/-!
# `Expression.Operator` — the operators of binding expressions

Seventeen binary operators on eight levels of precedence, all grouping to the left, and three unary
ones. Each has one spelling; `!` is the only spelling that is not a binary operator.

The logical operators give back one of their operands, the bitwise ones work on 32-bit integers, and
`+` joins texts as soon as one operand is a text.
-/

namespace Databind.Expression

/-- The binary operators, loosest first. -/
inductive BinaryOp where
  | or
  | and
  | bitOr
  | bitAnd
  | looseEq
  | looseNe
  | strictEq
  | strictNe
  | lt
  | gt
  | le
  | ge
  | add
  | sub
  | mul
  | div
  | rem
deriving DecidableEq

/-- The unary operators. -/
inductive UnaryOp where
  | not
  | neg
  | plus
deriving DecidableEq

namespace BinaryOp

/-- The level of precedence, from 1 (loosest) to 8. -/
def level : BinaryOp → Nat
  | or => 1
  | and => 2
  | bitOr => 3
  | bitAnd => 4
  | looseEq | looseNe | strictEq | strictNe => 5
  | lt | gt | le | ge => 6
  | add | sub => 7
  | mul | div | rem => 8

theorem level_le (op : BinaryOp) : op.level ≤ 8 := by cases op <;> decide

/-- How the operator is written. -/
def spelling : BinaryOp → String
  | or => "||"
  | and => "&&"
  | bitOr => "|"
  | bitAnd => "&"
  | looseEq => "=="
  | looseNe => "!="
  | strictEq => "==="
  | strictNe => "!=="
  | lt => "<"
  | gt => ">"
  | le => "<="
  | ge => ">="
  | add => "+"
  | sub => "-"
  | mul => "*"
  | div => "/"
  | rem => "%"

/-- A bitwise operation on the 32 bits of two integers. -/
def onBits (f : BitVec 32 → BitVec 32 → BitVec 32) (a b : Int) : Int :=
  (f (BitVec.ofInt 32 a) (BitVec.ofInt 32 b)).toInt

/-- Addition, or concatenation when one side is a text. -/
def applyAdd : Value → Value → Value
  | .string a, b => .string (a ++ b.display)
  | a, .string b => .string (a.display ++ b)
  | a, b => .number (a.toNumber.add b.toNumber)

/-- The value of an operation on two values. -/
def apply (op : BinaryOp) (a b : Value) : Value :=
  match op with
  | or => if a.truthy then a else b
  | and => if a.truthy then b else a
  | bitOr => .number (.ofInt (onBits (· ||| ·) a.toInt32 b.toInt32))
  | bitAnd => .number (.ofInt (onBits (· &&& ·) a.toInt32 b.toInt32))
  | looseEq => .bool (a.looseEqual b)
  | looseNe => .bool !(a.looseEqual b)
  | strictEq => .bool (a.strictEqual b)
  | strictNe => .bool !(a.strictEqual b)
  | lt => .bool (a.compare b == some .lt)
  | gt => .bool (a.compare b == some .gt)
  | le => .bool (a.compare b == some .lt || a.compare b == some .eq)
  | ge => .bool (a.compare b == some .gt || a.compare b == some .eq)
  | add => applyAdd a b
  | sub => .number (a.toNumber.sub b.toNumber)
  | mul => .number (a.toNumber.mul b.toNumber)
  | div => .number (a.toNumber.div b.toNumber)
  | rem => .number (a.toNumber.rem b.toNumber)

end BinaryOp

namespace UnaryOp

/-- How the operator is written. -/
def spelling : UnaryOp → String
  | not => "!"
  | neg => "-"
  | plus => "+"

/-- The value of an operation on one value. -/
def apply (op : UnaryOp) (a : Value) : Value :=
  match op with
  | not => .bool !a.truthy
  | neg => .number a.toNumber.neg
  | plus => .number a.toNumber

end UnaryOp

end Databind.Expression
