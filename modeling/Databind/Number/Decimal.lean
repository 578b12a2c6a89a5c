import Databind.Number.Basic

/-!
# `Number.Decimal` — decimal literals and their values

A `Decimal` is a sign, a coefficient and a power of ten. `Decimal.scan` reads the longest decimal
literal at the head of a text, `Decimal.toNumber` rounds it once, and `Number.ofLiteral?` reads a whole
text as a literal, `inf`, `infinity` or `nan`.

The grammar of a literal is

    sign? (digits ('.' digits?)? | '.' digits) (('e' | 'E') sign? digits)?

An exponent without digits is not part of the literal: the scan stops before its `e`.
-/

namespace Databind

-- Powers are the powers of natural numbers themselves, whatever algebra is in scope.
attribute [local instance (2000)] instPowNat

/-- A decimal literal: the sign, and `coefficient * 10 ^ exponent`. -/
structure Decimal where
  negative : Bool
  coefficient : Nat
  exponent : Int
deriving DecidableEq

namespace Decimal

/-- The value of a run of decimal digits. -/
def digitsValue (cs : List Char) : Nat :=
  cs.foldl (fun n c => 10 * n + (c.toNat - '0'.toNat)) 0

/-- The leading digits of a text, and the rest. -/
def scanDigits (cs : List Char) : List Char × List Char :=
  (cs.takeWhile Char.isDigit, cs.dropWhile Char.isDigit)

/-- An optional sign: whether it is negative, and the rest. -/
def scanSign : List Char → Bool × List Char
  | '+' :: rest => (false, rest)
  | '-' :: rest => (true, rest)
  | cs => (false, cs)

/-- The point and the digits behind it, if there is a point. -/
def scanFraction : List Char → List Char × List Char
  | '.' :: rest => scanDigits rest
  | cs => ([], cs)

/-- The digits of an exponent behind its `e`; none if there is no digit. -/
def scanPower (cs : List Char) : Option (Int × List Char) :=
  let (negative, cs) := scanSign cs
  let (digits, rest) := scanDigits cs
  if digits = [] then none
  else some (if negative then -(digitsValue digits : Int) else digitsValue digits, rest)

/-- An optional exponent. -/
def scanExponent (cs : List Char) : Int × List Char :=
  match cs with
  | 'e' :: rest => (scanPower rest).getD (0, cs)
  | 'E' :: rest => (scanPower rest).getD (0, cs)
  | _ => (0, cs)

/-- The longest decimal literal at the head of a text, and the rest. -/
def scan (cs : List Char) : Option (Decimal × List Char) :=
  let (negative, cs) := scanSign cs
  let (whole, cs) := scanDigits cs
  let (fraction, cs) := scanFraction cs
  if whole = [] ∧ fraction = [] then none
  else
    let (power, rest) := scanExponent cs
    some (⟨negative, digitsValue (whole ++ fraction), power - fraction.length⟩, rest)

/-- The number nearest to a decimal. A power of ten beyond `10 ^ 400` is infinite whatever the
coefficient, and a value below `2 ^ -1100` is zero, so no huge power is ever computed. -/
def toNumber (d : Decimal) : Number :=
  if d.coefficient = 0 then .zero d.negative
  else
    match d.exponent with
    | .ofNat e =>
      if 400 < e then .infinite d.negative
      else .round d.negative (d.coefficient * 10 ^ e * Number.one) 1
    | .negSucc e =>
      if d.coefficient.log2 + 1100 < 3 * (e + 1) then .zero d.negative
      else .round d.negative (d.coefficient * Number.one) (10 ^ (e + 1))

end Decimal

namespace Number

/-- ASCII lower case of each character. -/
def lowered (cs : List Char) : List Char := cs.map Char.toLower

/-- The number a whole text denotes as a literal: a decimal, or in any letter case and with an
optional sign `inf`, `infinity` or `nan`. -/
def ofLiteral? (cs : List Char) : Option Number :=
  match Decimal.scan cs with
  | some (d, []) => some d.toNumber
  | _ =>
    let (negative, word) := Decimal.scanSign cs
    if lowered word = ['i', 'n', 'f'] ∨ lowered word = ['i', 'n', 'f', 'i', 'n', 'i', 't', 'y'] then
      some (.infinite negative)
    else if lowered word = ['n', 'a', 'n'] then some .nan
    else none

end Number

end Databind
