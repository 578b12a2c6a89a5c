import Databind.Number.Basic

/-!
# `Number.Shortest` — the fewest digits that read back

The reals that round to a positive finite number form an interval around it. `shortest` walks the grids
of one, two, … seventeen significant digits, tries on each the two neighbours of the number, and stops
at the first grid with a neighbour inside the interval; of two it takes the nearer and of an exact tie
the upper. All tests are comparisons of natural numbers.
-/

namespace Databind

-- Powers are the powers of natural numbers themselves, whatever algebra is in scope.
attribute [local instance (2000)] instPowNat

namespace Number

/-- A positive decimal `coefficient * 10 ^ exponent`. -/
structure Digits where
  coefficient : Nat
  exponent : Int
deriving DecidableEq

namespace Size

/-- The distance to the next larger number, in units. -/
def stepAbove (size : Size) : Nat := 2 ^ (size.units.log2 - 52)

/-- The distance to the next smaller number, in units: half as far below a power of two. -/
def stepBelow (size : Size) : Nat :=
  if 52 < size.units.log2 ∧ size.units = 2 ^ size.units.log2 then
    2 ^ (size.units.log2 - 53)
  else 2 ^ (size.units.log2 - 52)

end Size

namespace Digits

/-- Twice the value in units, as a numerator and a denominator. -/
def halfUnits (d : Digits) : Nat × Nat :=
  match d.exponent with
  | .ofNat e => (2 * d.coefficient * 10 ^ e * one, 1)
  | .negSucc e => (2 * d.coefficient * one, 10 ^ (e + 1))

/-- Whether the decimal rounds to the size: it lies between the midpoints to the neighbours, the
midpoints counted when the size is even in its last bit. -/
def RoundsTo (d : Digits) (size : Size) : Prop :=
  if size.units / size.stepAbove % 2 = 0 then
    (2 * size.units - size.stepBelow) * d.halfUnits.2 ≤ d.halfUnits.1 ∧
      d.halfUnits.1 ≤ (2 * size.units + size.stepAbove) * d.halfUnits.2
  else
    (2 * size.units - size.stepBelow) * d.halfUnits.2 < d.halfUnits.1 ∧
      d.halfUnits.1 < (2 * size.units + size.stepAbove) * d.halfUnits.2

instance (d : Digits) (size : Size) : Decidable (d.RoundsTo size) := by
  unfold RoundsTo
  infer_instance

/-- The distance to the size, in half units times the denominator. -/
def distance (d : Digits) (size : Size) : Nat :=
  let (num, den) := d.halfUnits
  (num - 2 * size.units * den) + (2 * size.units * den - num)

end Digits

/-- The whole part of `size * 10 ^ shift`. -/
def scaled (size : Size) (shift : Int) : Nat :=
  match shift with
  | .ofNat e => size.units * 10 ^ e / one
  | .negSucc e => size.units / (one * 10 ^ (e + 1))

/-- The power `k` with `10 ^ (k - 1) ≤ size < 10 ^ k`, for a size that is not zero. -/
def decimalPoint (size : Size) : Int :=
  let whole := size.units / one
  if whole = 0 then
    match (List.range 324).find? (fun j => decide (one ≤ size.units * 10 ^ (j + 1))) with
    | some j => -(j : Int)
    | none => -323
  else (Nat.toDigits 10 whole).length

/-- The candidate on the grid of `count` significant digits, if one rounds to the size. -/
def onGrid? (size : Size) (point : Int) (count : Nat) : Option Digits :=
  let exponent := point - count
  let below := scaled size (-exponent)
  let lower : Digits := ⟨below, exponent⟩
  let upper : Digits := ⟨below + 1, exponent⟩
  if lower.RoundsTo size then
    if upper.RoundsTo size ∧ upper.distance size ≤ lower.distance size then some upper else some lower
  else if upper.RoundsTo size then some upper
  else none

/-- The decimal without a zero at its end. A carry to the next power of ten leaves one. -/
def Digits.trimmed (d : Digits) : Digits :=
  if d.coefficient % 10 = 0 then ⟨d.coefficient / 10, d.exponent + 1⟩ else d

/-- The fewest digits that read back as the size, the nearest of those. -/
def shortest (size : Size) : Digits :=
  let point := decimalPoint size
  (((List.range 17).findSome? fun n => onGrid? size point (n + 1)).getD ⟨scaled size 0, 0⟩).trimmed

end Number

end Databind
