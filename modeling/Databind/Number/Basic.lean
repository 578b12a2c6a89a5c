/-!
# `Number` — binary64 numbers as whole counts of one unit

Every finite binary64 number is a whole multiple of `2 ^ -1074`, the *unit*. A finite number is
therefore a sign and a count of units, and the count is one that 53 significant bits can hold
(`Fits`). Nothing else is stored, so two finite numbers with the same sign and the same count are the
same number, and the order of numbers is the order of their signed counts.

Arithmetic is exact on the counts and ends in one rounding function, `Number.round`: the nearest count
that fits, ties to the even neighbour, and infinity from `limit` on. The single proof obligation of the
representation is `nearestUnits_mod`: what the rounding gives always fits.

## Contents

* `Number`, `Number.round` — the type and the rounding.
* `add`, `sub`, `mul`, `div`, `rem`, `neg` — arithmetic.
* `position?`, `equal`, `compare` — the order; a not-a-number has no position.
* `toBits`, `ofBits` — the interchange form of 64 bits.
-/

namespace Databind

-- Powers are the powers of natural numbers themselves, whatever algebra is in scope.
attribute [local instance (2000)] instPowNat

namespace Number

/-- The number of units in one. -/
def one : Nat := 2 ^ (1074 : Nat)

/-- The least count of units that is too large: `2 ^ 1024`. -/
def limit : Nat := 2 ^ (2098 : Nat)

/-- A count of units that 53 significant bits hold. -/
def Fits (units : Nat) : Prop := units < limit ∧ units % 2 ^ (units.log2 - 52) = 0

instance (units : Nat) : Decidable (Fits units) := inferInstanceAs (Decidable (_ ∧ _))

/-- The size of a finite number. -/
structure Size where
  /-- How many units it has. -/
  units : Nat
  fits : Fits units
deriving DecidableEq

end Number

/-- A binary64 number. Zero has two signs; there is one not-a-number. -/
inductive Number where
  | nan
  | infinite (negative : Bool)
  | finite (negative : Bool) (size : Number.Size)
deriving DecidableEq

namespace Number

/-! ## Rounding -/

/-- The whole number nearest to `num / den`, a tie going to the even neighbour. -/
def roundQuotient (num den : Nat) : Nat :=
  let quotient := num / den
  let rest := 2 * (num % den)
  if rest < den then quotient
  else if den < rest then quotient + 1
  else if quotient % 2 = 0 then quotient
  else quotient + 1

theorem roundQuotient_le (num den : Nat) : roundQuotient num den ≤ num / den + 1 := by
  simp only [roundQuotient]
  repeat' split
  all_goals omega

/-- The count of units nearest to `num / den` among those with at most 53 significant bits. -/
def nearestUnits (num den : Nat) : Nat :=
  let step := 2 ^ ((num / den).log2 - 52)
  step * roundQuotient num (den * step)

/-- A multiple `k` of `2 ^ s` with `k ≤ 2 ^ 53` has at most 53 significant bits. -/
theorem mul_two_pow_mod (s k : Nat) (hk : k ≤ 2 ^ (53 : Nat)) :
    2 ^ s * k % 2 ^ ((2 ^ s * k).log2 - 52) = 0 := by
  rcases Nat.eq_zero_or_pos k with rfl | hpos
  · simp
  · have hne : 2 ^ s * k ≠ 0 := Nat.mul_ne_zero (Nat.ne_of_gt (Nat.pow_pos (by omega))) (Nat.ne_of_gt hpos)
    rcases Nat.lt_or_eq_of_le hk with hlt | rfl
    · have hlog : (2 ^ s * k).log2 < s + 53 := by
        rw [Nat.log2_lt hne, Nat.pow_add]
        exact Nat.mul_lt_mul_of_pos_left hlt (Nat.pow_pos (by omega))
      have hdvd : 2 ^ ((2 ^ s * k).log2 - 52) ∣ 2 ^ s :=
        Nat.pow_dvd_pow 2 (by omega)
      exact Nat.mod_eq_zero_of_dvd (Nat.dvd_trans hdvd (Nat.dvd_mul_right _ _))
    · rw [← Nat.pow_add, Nat.log2_two_pow]
      exact Nat.mod_eq_zero_of_dvd (Nat.pow_dvd_pow 2 (by omega))

/-- **The rounded count fits in 53 significant bits.** -/
theorem nearestUnits_mod (num den : Nat) :
    nearestUnits num den % 2 ^ ((nearestUnits num den).log2 - 52) = 0 := by
  apply mul_two_pow_mod
  refine Nat.le_trans (roundQuotient_le _ _) ?_
  rw [← Nat.div_div_eq_div_mul]
  apply Nat.succ_le_of_lt
  apply Nat.div_lt_of_lt_mul
  rw [← Nat.pow_add]
  exact Nat.lt_of_lt_of_le Nat.lt_log2_self (Nat.pow_le_pow_right (by omega) (by omega))

/-- The number nearest to `num / den` units, infinite once the rounded count reaches `limit`. -/
def round (negative : Bool) (num den : Nat) : Number :=
  if h : nearestUnits num den < limit then
    .finite negative ⟨nearestUnits num den, h, nearestUnits_mod num den⟩
  else
    .infinite negative

/-- Zero of the given sign. -/
def zero (negative : Bool) : Number := .finite negative ⟨0, by decide +kernel⟩

/-- The number nearest to an integer. -/
def ofInt (i : Int) : Number := round (i < 0) (i.natAbs * one) 1

/-- The number nearest to a natural number. -/
def ofNat (n : Nat) : Number := round false (n * one) 1

/-! ## Arithmetic -/

/-- Whether the number is one of the two zeros. -/
def isZero : Number → Bool
  | .finite _ size => size.units == 0
  | _ => false

def isNaN : Number → Bool
  | .nan => true
  | _ => false

def isFinite : Number → Bool
  | .finite _ _ => true
  | _ => false

/-- The signed count of units of a finite number. -/
def signedUnits (negative : Bool) (size : Size) : Int :=
  if negative then -(size.units : Int) else size.units

def neg : Number → Number
  | .nan => .nan
  | .infinite negative => .infinite !negative
  | .finite negative size => .finite (!negative) size

/-- The rounded sum. An exact sum of zero is negative only if both operands are. -/
def add : Number → Number → Number
  | .nan, _ => .nan
  | _, .nan => .nan
  | .infinite a, .infinite b => if a = b then .infinite a else .nan
  | .infinite a, .finite _ _ => .infinite a
  | .finite _ _, .infinite b => .infinite b
  | .finite a x, .finite b y =>
    let sum := signedUnits a x + signedUnits b y
    if sum = 0 then zero (a && b) else round (sum < 0) sum.natAbs 1

def sub (x y : Number) : Number := add x (neg y)

/-- The rounded product; zero times infinity is not a number. -/
def mul : Number → Number → Number
  | .nan, _ => .nan
  | _, .nan => .nan
  | .infinite a, .infinite b => .infinite (a != b)
  | .infinite a, .finite b y => if y.units = 0 then .nan else .infinite (a != b)
  | .finite a x, .infinite b => if x.units = 0 then .nan else .infinite (a != b)
  | .finite a x, .finite b y => round (a != b) (x.units * y.units) one

/-- The rounded quotient; a nonzero number over zero is infinite. -/
def div : Number → Number → Number
  | .nan, _ => .nan
  | _, .nan => .nan
  | .infinite _, .infinite _ => .nan
  | .infinite a, .finite b _ => .infinite (a != b)
  | .finite a _, .infinite b => zero (a != b)
  | .finite a x, .finite b y =>
    if y.units = 0 then
      if x.units = 0 then .nan else .infinite (a != b)
    else round (a != b) (x.units * one) y.units

/-- The remainder of the quotient truncated toward zero, with the sign of the dividend. -/
def rem : Number → Number → Number
  | .nan, _ => .nan
  | _, .nan => .nan
  | .infinite _, _ => .nan
  | .finite a x, .infinite _ => .finite a x
  | .finite a x, .finite _ y => if y.units = 0 then .nan else round a (x.units % y.units) 1

/-- The integer part, toward zero; none for the infinities and not-a-number. -/
def truncate? : Number → Option Int
  | .finite negative size =>
    let whole : Int := (size.units / one : Nat)
    some (if negative then -whole else whole)
  | _ => none

/-- Whether a finite number has no fraction. -/
def isIntegral : Number → Bool
  | .finite _ size => size.units % one == 0
  | _ => false

/-! ## Order -/

/-- The place on the number line, in units, the infinities just outside the finite numbers. -/
def position? : Number → Option Int
  | .nan => none
  | .infinite negative => some (if negative then -(limit : Int) else limit)
  | .finite negative size => some (signedUnits negative size)

/-- Numeric equality: the zeros are equal, not-a-number equals nothing. -/
def equal (x y : Number) : Bool :=
  match position? x, position? y with
  | some p, some q => p == q
  | _, _ => false

/-- Numeric order, undefined when either side is not a number. -/
def compare (x y : Number) : Option Ordering :=
  match position? x, position? y with
  | some p, some q => some (Ord.compare p q)
  | _, _ => none

/-! ## The interchange form -/

/-- The exponent field and fraction of a size, as one number of 63 bits. -/
def Size.code (size : Size) : Nat :=
  let shift := size.units.log2 - 52
  if size.units < 2 ^ (52 : Nat) then size.units
  else (shift + 1) * 2 ^ (52 : Nat) + (size.units / 2 ^ shift - 2 ^ (52 : Nat))

/-- The 64 bits of a number: sign, eleven bits of exponent, 52 bits of fraction. -/
def toBits : Number → Nat
  | .nan => 0x7ff8000000000000
  | .infinite negative => (if negative then 2 ^ (63 : Nat) else 0) + 0x7ff0000000000000
  | .finite negative size => (if negative then 2 ^ (63 : Nat) else 0) + size.code

/-- The number with the given 64 bits. -/
def ofBits (bits : Nat) : Number :=
  let negative := bits / 2 ^ (63 : Nat) % 2 = 1
  let exponent := bits / 2 ^ (52 : Nat) % 2 ^ (11 : Nat)
  let fraction := bits % 2 ^ (52 : Nat)
  if exponent = 2047 then
    if fraction = 0 then .infinite negative else .nan
  else if exponent = 0 then round negative fraction 1
  else round negative ((2 ^ (52 : Nat) + fraction) * 2 ^ (exponent - 1)) 1

end Number

end Databind
