import Databind.Number.Decimal
import Databind.Number.Text

/-!
# `Proofs.Numeral` — whole numbers written and read

A natural number below `2 ^ 53` is a number without rounding (`Number.ofNat_eq`). It is therefore written with its own
decimal digits (`Number.display_ofNat`), and reading these gives it back (`Decimal.digitsValue_digits`). A literal without
a fraction, of any size, stands for the number nearest to its digits (`Decimal.toNumber_whole`).
-/

namespace Databind

-- Powers are the powers of natural numbers themselves, whatever algebra is in scope.
attribute [local instance (2000)] instPowNat

namespace Number

theorem one_pos : 0 < one := by
  unfold one
  exact Nat.two_pow_pos 1074

/-- A count of units that 53 significant bits hold is its own nearest. -/
theorem nearestUnits_one {units : Nat} (h : Fits units) : nearestUnits units 1 = units := by
  have hrest := h.2
  unfold nearestUnits roundQuotient
  dsimp only
  rw [Nat.div_one, Nat.one_mul, hrest, Nat.mul_zero, if_pos (Nat.pow_pos (by decide))]
  exact Nat.mul_div_cancel' (Nat.dvd_of_mod_eq_zero hrest)

theorem round_of_fits (negative : Bool) {units : Nat} (h : Fits units) :
    round negative units 1 = .finite negative ⟨units, h⟩ := by
  have hsame := nearestUnits_one h
  unfold round
  rw [dif_pos (hsame.symm ▸ h.1)]
  congr 2

/-- Few enough units, all of them above a power of two. -/
theorem fits_mul_two_pow {k e : Nat} (h : k < 2 ^ (53 : Nat)) (he : 53 + e ≤ 2098) : Fits (k * 2 ^ e) := by
  constructor
  · refine Nat.lt_of_lt_of_le (Nat.mul_lt_mul_of_pos_right h (Nat.two_pow_pos e)) ?_
    rw [← Nat.pow_add]
    unfold limit
    generalize 2098 = l at he ⊢
    exact Nat.pow_le_pow_right Nat.two_pos he
  · rw [Nat.mul_comm]
    exact mul_two_pow_mod e k (Nat.le_of_lt h)

/-- A natural number below `2 ^ 53` is a count of ones that 53 significant bits hold. -/
theorem fits_whole {k : Nat} (h : k < 2 ^ (53 : Nat)) : Fits (k * one) := by
  have he : 53 + 1074 ≤ 2098 := by decide
  unfold one
  -- with a name for the exponent nothing tries to compute the power
  generalize 1074 = e at he ⊢
  exact fits_mul_two_pow h he

/-- **A natural number below `2 ^ 53` is a number as it stands.** -/
theorem ofNat_eq {k : Nat} (h : k < 2 ^ (53 : Nat)) : ofNat k = .finite false ⟨k * one, fits_whole h⟩ :=
  round_of_fits false (fits_whole h)

/-- **It is written with its own digits.** -/
theorem display_ofNat {k : Nat} (h : k < 2 ^ (53 : Nat)) : (ofNat k).display = digits k := by
  have hlimit : k * one < wholeLimit * one :=
    Nat.mul_lt_mul_of_pos_right (Nat.lt_of_lt_of_le h (by decide)) one_pos
  rw [ofNat_eq h, display]
  by_cases hzero : k = 0
  · subst hzero
    rw [if_pos (Nat.zero_mul _)]
    rfl
  · rw [if_neg (Nat.mul_ne_zero hzero (Nat.ne_of_gt one_pos)), if_pos ⟨Nat.mul_mod_left .., hlimit⟩,
      Nat.mul_div_cancel _ one_pos]
    rfl

end Number

/-- **The digits of a natural number read as that number.** -/
theorem Decimal.digitsValue_digits (k : Nat) : digitsValue (Number.digits k) = k := by
  unfold digitsValue Number.digits
  rw [← Nat.ofDigitChars_eq_foldl, Nat.ofDigitChars_ten_toDigits]

/-- **A literal without a fraction is rounded as it stands.** -/
theorem Decimal.toNumber_whole (negative : Bool) (k : Nat) :
    toNumber ⟨negative, k, 0⟩ = .round negative (k * Number.one) 1 := by
  unfold toNumber
  split
  · next hzero =>
    have hfits : Number.Fits 0 := by decide +kernel
    rw [show k = 0 from hzero, Nat.zero_mul, Number.round_of_fits negative hfits]
    rfl
  · split
    · next e he =>
      have hnone : e = 0 := (Int.ofNat.inj he).symm
      rw [hnone, if_neg (by decide), Nat.pow_zero, Nat.mul_one]
    · next e he => exact absurd he (by simp)

/-- A natural number below `2 ^ 53`. -/
def Number.Whole (n : Number) : Prop := ∃ k, k < 2 ^ (53 : Nat) ∧ n = ofNat k

/-- The text of a whole number is a run of digits, and it reads as the number. -/
theorem Number.Whole.display_cons {n : Number} (h : n.Whole) :
    ∃ c rest, n.display = c :: rest ∧ (∀ d ∈ c :: rest, d.isDigit = true) ∧
      n = ofNat (Decimal.digitsValue (c :: rest)) := by
  obtain ⟨k, hk, hn⟩ := h
  have hdigit : ∀ d ∈ digits k, d.isDigit = true := fun d hd =>
    Nat.isDigit_of_mem_toDigits (by decide) (by decide) hd
  have hvalue := Decimal.digitsValue_digits k
  rw [hn, display_ofNat hk]
  cases hdigits : digits k with
  | nil => exact absurd hdigits Nat.toDigits_ne_nil
  | cons c rest =>
    rw [hdigits] at hdigit hvalue
    exact ⟨c, rest, rfl, hdigit, by rw [hvalue]⟩

end Databind
