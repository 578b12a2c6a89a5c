import Databind.Number.Shortest

/-!
# `Number.Text` — how numbers are written

Two written forms. `display` is what a user sees: whole numbers below `10 ^ 21` without a fraction, all
others in positional notation with the fewest digits that read back. `inspect` is what a diagnostic
shows: a whole number keeps `.0`, and very large and very small ones take an exponent.
-/

namespace Databind

-- Powers are the powers of natural numbers themselves, whatever algebra is in scope.
attribute [local instance (2000)] instPowNat

namespace Number

/-- The decimal digits of a natural number. -/
def digits (n : Nat) : List Char := Nat.toDigits 10 n

/-- Positional notation of `coefficient * 10 ^ exponent`, without a point when there is no fraction. -/
def Digits.positional (d : Digits) : List Char :=
  let ds := digits d.coefficient
  match d.exponent with
  | .ofNat e => ds ++ List.replicate e '0'
  | .negSucc e =>
    let places := e + 1
    if places < ds.length then
      ds.take (ds.length - places) ++ '.' :: ds.drop (ds.length - places)
    else '0' :: '.' :: List.replicate (places - ds.length) '0' ++ ds

/-- Scientific notation: one digit, the other digits behind a point, and the power of ten. -/
def Digits.scientific (d : Digits) : List Char :=
  let ds := digits d.coefficient
  let power := d.exponent + ds.length - 1
  let mantissa :=
    match ds with
    | c :: next :: rest => c :: '.' :: next :: rest
    | _ => ds
  mantissa ++ 'e' :: (toString power).toList

/-- A minus sign in front of the digits of a negative number. -/
def signed (negative : Bool) (cs : List Char) : List Char :=
  if negative then '-' :: cs else cs

/-- The least whole number that is not written out digit by digit: `10 ^ 21`. -/
def wholeLimit : Nat := 10 ^ (21 : Nat)

/-- **The text of a number for display.** Both zeros are written `0`. -/
def display : Number → List Char
  | .nan => "NaN".toList
  | .infinite negative => signed negative "Infinity".toList
  | .finite negative size =>
    if size.units = 0 then ['0']
    else if size.units % one = 0 ∧ size.units < wholeLimit * one then
      signed negative (digits (size.units / one))
    else signed negative (shortest size).positional

/-- The text of a number in a diagnostic: positional from `10 ^ -4` up to `10 ^ 16`, with at least one
digit behind the point, and scientific elsewhere. -/
def inspect : Number → List Char
  | .nan => "NaN".toList
  | .infinite negative => signed negative "inf".toList
  | .finite negative size =>
    if size.units = 0 then signed negative "0.0".toList
    else if one ≤ size.units * 10 ^ (4 : Nat) ∧ size.units < 10 ^ (16 : Nat) * one then
      let text := (shortest size).positional
      signed negative (if text.contains '.' then text else text ++ ['.', '0'])
    else signed negative (shortest size).scientific

end Number

end Databind
