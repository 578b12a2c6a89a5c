import Databind.Expression.Operator
import Databind.Text.Quoted

/-!
# `Expression.Token` — the words of operator expressions

`Token.scan` cuts an operator fragment into tokens. A number is a maximal run of digits, an operator is
the longest spelling at the head of the rest, and blanks separate. The only spelling at fault in a
fragment of operator characters is a lone `=`.
-/

namespace Databind.Expression

/-- What a spelling stands for: one of the binary operators, or the negation sign. -/
inductive Operator where
  | binary (op : BinaryOp)
  | not
deriving DecidableEq

namespace Operator

/-- How the operator is written. -/
def spelling : Operator → String
  | binary op => op.spelling
  | not => "!"

/-- Every operator, longer spellings before shorter ones. -/
def all : List Operator :=
  [.binary .strictEq, .binary .strictNe, .binary .looseEq, .binary .looseNe, .binary .le, .binary .ge,
    .binary .and, .binary .or, .binary .lt, .binary .gt, .not, .binary .bitAnd, .binary .bitOr,
    .binary .add, .binary .sub, .binary .mul, .binary .div, .binary .rem]

/-- The operator with the longest spelling at the head of a text. -/
def leading? (cs : List Char) : Option Operator :=
  all.find? fun op => op.spelling.toList.isPrefixOf cs

theorem spelling_length_pos (op : Operator) : 0 < op.spelling.toList.length := by
  cases op with
  | not => decide
  | binary op => cases op <;> decide

/-- The unary operator a spelling stands for in front of an operand. -/
def unary? : Operator → Option UnaryOp
  | not => some .not
  | binary .sub => some .neg
  | binary .add => some .plus
  | _ => none

end Operator

/-- One word of an operator expression. -/
inductive Token where
  | number (n : Number)
  | field (name : String)
  | op (operator : Operator)
  | opening
  | closing
deriving DecidableEq

/-- Why an operator expression does not parse. -/
inductive Fault where
  /-- A lone `=`. -/
  | assignment
  /-- A character that starts no token. -/
  | character (c : Char)
  /-- An operator where a binary one has to stand. -/
  | notBinary (operator : Operator)
  /-- An operator where an operand has to stand. -/
  | unexpectedOperator (operator : Operator)
  | unexpectedClosing
  | missingClosing
  | unexpectedEnd
  /-- A token behind a complete expression. -/
  | trailing (token : Token)
deriving DecidableEq

namespace Token

/-- The written form of a token in a diagnostic. -/
def inspect : Token → String
  | number n => "Number(" ++ String.ofList n.inspect ++ ")"
  | field name => "Field(" ++ Text.quoted name ++ ")"
  | op operator => "Op(" ++ Text.quoted operator.spelling ++ ")"
  | opening => "LParen"
  | closing => "RParen"

/-- The tokens of an operator fragment. -/
def scan (cs : List Char) : Except Fault (List Token) :=
  match cs with
  | [] => .ok []
  | c :: rest =>
    if Text.isBlank c then scan rest
    else if c.isDigit then
      (scan (rest.dropWhile Char.isDigit)).map
        (number (.ofNat (Decimal.digitsValue (c :: rest.takeWhile Char.isDigit))) :: ·)
    else if c = '(' then (scan rest).map (opening :: ·)
    else if c = ')' then (scan rest).map (closing :: ·)
    else
      match Operator.leading? (c :: rest) with
      | some operator =>
        (scan ((c :: rest).drop operator.spelling.toList.length)).map (op operator :: ·)
      | none => .error (if c = '=' then .assignment else .character c)
termination_by cs.length
decreasing_by
  all_goals simp only [List.length_cons, List.length_drop]
  · omega
  · have := (List.dropWhile_sublist (l := rest) Char.isDigit).length_le
    omega
  · omega
  · omega
  · have := operator.spelling_length_pos
    omega

end Token

namespace Fault

/-- The wording of a fault. -/
def message : Fault → String
  | assignment => "assignment is not allowed in a binding expression"
  | character c => "unexpected character '" ++ String.ofList [c] ++ "'"
  | notBinary operator => "'" ++ operator.spelling ++ "' is not a binary operator"
  | unexpectedOperator operator => "unexpected operator '" ++ operator.spelling ++ "'"
  | unexpectedClosing => "unexpected ')'"
  | missingClosing => "missing ')'"
  | unexpectedEnd => "unexpected end of expression"
  | trailing token => "unexpected trailing token " ++ token.inspect

end Fault

end Databind.Expression
