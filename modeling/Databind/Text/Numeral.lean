import Databind.Number.Decimal

/-!
# `Text.Numeral` — whole numbers in text
-/

namespace Databind.Text

-- Powers are the powers of natural numbers themselves, whatever algebra is in scope.
attribute [local instance (2000)] instPowNat

/-- The bound of machine-sized whole numbers. -/
def sizeBound : Nat := 2 ^ (64 : Nat)

/-- The whole number a text denotes: digits, perhaps behind a plus sign, below the bound. -/
def readSize? (cs : List Char) : Option Nat :=
  let digits := if cs.head? = some '+' then cs.tail else cs
  if digits ≠ [] ∧ digits.all Char.isDigit ∧ Decimal.digitsValue digits < sizeBound then
    some (Decimal.digitsValue digits)
  else none

end Databind.Text
