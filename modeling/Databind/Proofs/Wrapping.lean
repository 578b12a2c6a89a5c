import Databind.Expression.Tree
import Databind.Proofs.Numeral
import Mathlib.Data.Int.Bitwise
import Mathlib.Data.Int.ModEq
import Mathlib.Data.Rat.Floor
import Mathlib.Tactic.Ring

/-!
# `Proofs.Wrapping` — numbers as words of 32 bits

The bitwise operators work on words of 32 bits. On the way from a number to a word four things are done to it: its
fraction is cut off, the remainder by `2 ^ 32` is taken and made non-negative, the remainder becomes a word, and the
word is read with a sign (`Value.wrapped`). A sum of numbers may round, and a number that is out of range becomes the
nearest word. Neither happens here: behind the first step every number is an integer, and behind the second one it is
below `2 ^ 32`. So each step does to a number what its law says of integers, and together they are the one step of
`Value.toInt32`.

Integers have as many bits as one likes, and their signs repeat in all higher places (`testBit_toInt`). The operators on
words are therefore those on integers (`lor_toInt`, `land_toInt`).

## Main definitions

* `Number.value?` — the rational number that a number is.
* `Number.towardZero` — a rational number without its fraction.
* `Number.trunc`, `Number.remEuclid`, `Number.toWord` — the steps.
* `Value.wrapped` — the steps together.
* `IsWord` — an integer that a word stands for.
-/

namespace Databind

-- Powers are the powers of natural numbers themselves, whatever algebra is in scope.
attribute [local instance (2000)] instPowNat

/-! ## Bits of integers -/

/-- Integers with the same bits are the same. -/
theorem eq_of_testBit_eq {a b : ℤ} (h : ∀ i, a.testBit i = b.testBit i) : a = b := by
  -- a large enough bit tells the signs apart, and the others the sizes
  have hhigh : ∀ m n : Nat, m.testBit (m + n) = false ∧ n.testBit (m + n) = false := by
    intro m n
    have hpow : m + n < 2 ^ (m + n) := Nat.lt_two_pow_self
    exact ⟨Nat.testBit_lt_two_pow (by omega), Nat.testBit_lt_two_pow (by omega)⟩
  cases a with
  | ofNat m =>
    cases b with
    | ofNat n => exact congrArg Int.ofNat (Nat.eq_of_testBit_eq h)
    | negSucc n =>
      have hbit := h (m + n)
      simp [Int.testBit, hhigh m n] at hbit
  | negSucc m =>
    cases b with
    | ofNat n =>
      have hbit := h (m + n)
      simp [Int.testBit, hhigh m n] at hbit
    | negSucc n => exact congrArg Int.negSucc (Nat.eq_of_testBit_eq fun i => Bool.not_inj (h i))

/-- **The bits of a word that is read with a sign**: its own, and its sign in all higher places. -/
theorem testBit_toInt {w : Nat} (x : BitVec w) (i : Nat) :
    x.toInt.testBit i = if i < w then x.getLsbD i else x.msb := by
  have hlt := x.isLt
  have hbit := x.testBit_toNat (i := i)
  rw [BitVec.toInt_eq_msb_cond]
  cases hmsb : x.msb with
  | false =>
    rw [if_neg Bool.false_ne_true]
    refine hbit.trans ?_
    split
    · rfl
    · next hi => exact x.getLsbD_of_ge i (Nat.le_of_not_lt hi)
  | true =>
    have hneg : (x.toNat : ℤ) - ((2 ^ w : Nat) : ℤ) = Int.negSucc (2 ^ w - (x.toNat + 1)) := by omega
    rw [if_pos rfl, hneg]
    show (!(2 ^ w - (x.toNat + 1)).testBit i) = _
    rw [Nat.testBit_two_pow_sub_succ hlt, hbit]
    split <;> simp_all

theorem lor_toInt {w : Nat} (x y : BitVec w) : (x ||| y).toInt = x.toInt.lor y.toInt := by
  apply eq_of_testBit_eq
  intro i
  rw [Int.testBit_lor, testBit_toInt, testBit_toInt, testBit_toInt]
  split
  · exact BitVec.getLsbD_or ..
  · exact BitVec.msb_or

theorem land_toInt {w : Nat} (x y : BitVec w) : (x &&& y).toInt = x.toInt.land y.toInt := by
  apply eq_of_testBit_eq
  intro i
  rw [Int.testBit_land, testBit_toInt, testBit_toInt, testBit_toInt]
  split
  · exact BitVec.getLsbD_and ..
  · exact BitVec.msb_and

/-! ## The values of numbers -/

namespace Number

variable {n : Number} {q : ℚ} {i : ℤ} {k m : Nat}

/-- A count of units is a multiple of every power of two that it exceeds by more than 53 bits. -/
theorem two_pow_dvd_of_fits {units e : Nat} (h : Fits units) (hlarge : 2 ^ (53 : Nat) * 2 ^ e ≤ units) :
    2 ^ e ∣ units := by
  rw [← Nat.pow_add] at hlarge
  have hne : units ≠ 0 := Nat.ne_of_gt (Nat.lt_of_lt_of_le (Nat.two_pow_pos _) hlarge)
  have hlog := (Nat.le_log2 hne).mpr hlarge
  exact Nat.dvd_trans (Nat.pow_dvd_pow 2 (by omega)) (Nat.dvd_of_mod_eq_zero h.2)

/-- Without its fraction a count of units needs no more bits. -/
theorem fits_trunc {units : Nat} (h : Fits units) : Fits (units / one * one) := by
  by_cases hsmall : units / one < 2 ^ (53 : Nat)
  · exact fits_whole hsmall
  · -- a number as large as that has no fraction
    have hlarge : 2 ^ (53 : Nat) * one ≤ units := (Nat.le_div_iff_mul_le one_pos).mp (Nat.le_of_not_lt hsmall)
    have hdvd : one ∣ units := by
      unfold one at hlarge ⊢
      exact two_pow_dvd_of_fits (e := 1074) h hlarge
    rwa [Nat.div_mul_cancel hdvd]

theorem one_ne_zero : (one : ℚ) ≠ 0 := Nat.cast_ne_zero.mpr (Nat.ne_of_gt one_pos)

-- From here on any positive number of units would do, and it must not be written out when terms are compared.
attribute [local irreducible] one

/-- **The rational number that a number is**; none for the infinities and not-a-number. -/
def value? : Number → Option ℚ
  | .finite negative size => some ((signedUnits negative size : ℚ) / (one : ℚ))
  | _ => none

/-- **A rational number without its fraction.** -/
def towardZero (q : ℚ) : ℤ := if 0 ≤ q then ⌊q⌋ else ⌈q⌉

/-- A number of whole ones, and its sign. -/
theorem value?_finite (negative : Bool) (hfits : Fits (k * one)) :
    value? (.finite negative ⟨k * one, hfits⟩) = some ((if negative then -(k : ℤ) else k : ℤ) : ℚ) := by
  rw [value?, Option.some_inj, div_eq_iff one_ne_zero]
  cases negative <;> simp [signedUnits]

/-- **A number that is an integer** has a sign and whole ones. -/
theorem exists_finite_of_value? (h : n.value? = some (i : ℚ)) : ∃ negative k, ∃ hfits : Fits (k * one),
    n = .finite negative ⟨k * one, hfits⟩ ∧ i = if negative then -(k : ℤ) else k := by
  cases n with
  | nan => cases h
  | infinite negative => cases h
  | finite negative size =>
    obtain ⟨units, hfits⟩ := size
    rw [value?, Option.some_inj, div_eq_iff one_ne_zero] at h
    have hunits : signedUnits negative ⟨units, hfits⟩ = i * (one : ℤ) := by exact_mod_cast h
    have habs : units = i.natAbs * one := by
      have hnatAbs : (signedUnits negative ⟨units, hfits⟩).natAbs = units := by
        cases negative <;> simp [signedUnits]
      rw [← hnatAbs, hunits, Int.natAbs_mul, Int.natAbs_natCast]
    subst habs
    refine ⟨negative, i.natAbs, hfits, rfl, ?_⟩
    apply Int.eq_of_mul_eq_mul_right (Int.natCast_ne_zero.mpr (Nat.ne_of_gt one_pos))
    rw [← hunits]
    cases negative <;> simp [signedUnits]

/-- An integer of less than 53 bits is a number as it stands. -/
theorem value?_ofInt (h : i.natAbs < 2 ^ (53 : Nat)) : (ofInt i).value? = some (i : ℚ) := by
  rw [ofInt, round_of_fits _ (fits_whole h), value?_finite]
  congr 2
  by_cases hneg : i < 0
  · rw [decide_eq_true hneg, if_pos rfl]
    omega
  · rw [decide_eq_false hneg, if_neg Bool.false_ne_true]
    omega

/-- The integer part that a number has is the value without its fraction. -/
theorem truncate?_of_value? (h : n.value? = some q) : n.truncate? = some (towardZero q) := by
  cases n with
  | nan => cases h
  | infinite negative => cases h
  | finite negative size =>
    cases h
    have hfloor : ⌊(size.units : ℚ) / (one : ℚ)⌋ = ((size.units / one : Nat) : ℤ) := Rat.floor_natCast_div_natCast _ _
    have hpos : 0 ≤ (size.units : ℚ) / (one : ℚ) := by positivity
    rw [truncate?, towardZero]
    congr 1
    cases negative with
    | false => simp only [signedUnits, Bool.false_eq_true, if_false, Int.cast_natCast, if_pos hpos, hfloor]
    | true =>
      simp only [signedUnits, if_true, Int.cast_neg, Int.cast_natCast, neg_div]
      by_cases hzero : 0 ≤ -((size.units : ℚ) / (one : ℚ))
      · -- a zero with a sign
        have hnull : (size.units : ℚ) / (one : ℚ) = 0 := by linarith
        rw [if_pos hzero, ← hfloor, hnull]
        rfl
      · rw [if_neg hzero, Int.ceil_neg, hfloor]

/-! ## The steps on numbers -/

/-- A number without its fraction, of the same sign. -/
def trunc : Number → Number
  | .finite negative size => round negative (size.units / one * one) 1
  | n => n

/-- The size of a number. -/
def abs : Number → Number
  | .nan => .nan
  | .infinite _ => .infinite false
  | .finite _ size => .finite false size

/-- The remainder by a number, made non-negative by adding the number to a negative one. -/
def remEuclid (x y : Number) : Number :=
  let r := x.rem y
  if r.compare (zero false) = some .lt then r.add y.abs else r

/-- The word nearest to a number without its fraction; zero for not-a-number. -/
def toWord : Number → BitVec 32
  | .nan => 0
  | .infinite negative => if negative then 0 else BitVec.allOnes 32
  | .finite negative size => if negative then 0 else BitVec.ofNat 32 (min (size.units / one) (2 ^ (32 : Nat) - 1))

/-- **The fraction is cut off** without rounding. -/
theorem value?_trunc (h : n.value? = some q) : n.trunc.value? = some (towardZero q : ℚ) := by
  have htruncate := truncate?_of_value? h
  cases n with
  | nan => cases h
  | infinite negative => cases h
  | finite negative size =>
    rw [truncate?, Option.some_inj] at htruncate
    rw [trunc, round_of_fits negative (fits_trunc size.fits), value?_finite, htruncate]

/-- The remainder of whole ones. -/
theorem rem_ofNat (negative : Bool) (hfits : Fits (k * one)) (hpos : 0 < m) (hm : m < 2 ^ (53 : Nat)) :
    rem (.finite negative ⟨k * one, hfits⟩) (ofNat m) =
      .finite negative ⟨k % m * one, fits_whole (Nat.lt_trans (Nat.mod_lt k hpos) hm)⟩ := by
  rw [ofNat_eq hm, rem, if_neg (Nat.mul_ne_zero (Nat.ne_of_gt hpos) (Nat.ne_of_gt one_pos)), Nat.mul_mod_mul_right,
    round_of_fits]

/-- A zero with a sign is not below zero. -/
theorem lt_zero_iff (negative : Bool) (hfits : Fits (k * one)) :
    compare (.finite negative ⟨k * one, hfits⟩) (zero false) = some .lt ↔ negative = true ∧ 0 < k := by
  have hsize : (0 : ℤ) < ((k * one : Nat) : ℤ) ↔ 0 < k := by
    rw [Int.natCast_pos, Nat.mul_pos_iff_of_pos_right one_pos]
  have hsign : signedUnits negative ⟨k * one, hfits⟩ < 0 ↔ negative = true ∧ 0 < k := by
    cases negative with
    | false => simp only [signedUnits, Bool.false_eq_true, if_false, false_and, iff_false]; omega
    | true => simp only [signedUnits, if_true, true_and, ← hsize]; omega
  rw [← hsign]
  exact Option.some_inj.trans compare_lt_iff_lt

/-- The sum of a negative integer and a larger number of ones. -/
theorem add_ofNat (hfits : Fits (k * one)) (hk : k < m) (hm : m < 2 ^ (53 : Nat)) :
    add (.finite true ⟨k * one, hfits⟩) (ofNat m).abs =
      .finite false ⟨(m - k) * one, fits_whole (Nat.lt_of_le_of_lt (Nat.sub_le m k) hm)⟩ := by
  have hunits : signedUnits true ⟨k * one, hfits⟩ + signedUnits false ⟨m * one, fits_whole hm⟩ =
      (((m - k) * one : Nat) : ℤ) := by
    rw [signedUnits, signedUnits, if_pos rfl, if_neg Bool.false_ne_true, Nat.cast_mul, Nat.cast_mul, Nat.cast_mul,
      Nat.cast_sub (Nat.le_of_lt hk)]
    ring
  have hpositive : 0 < (m - k) * one := Nat.mul_pos (Nat.sub_pos_of_lt hk) one_pos
  rw [ofNat_eq hm, abs, add]
  simp only [hunits]
  rw [if_neg (by omega), decide_eq_false (by omega), Int.natAbs_natCast, round_of_fits]

/-- **The remainder is taken and made non-negative** without rounding. -/
theorem value?_remEuclid (h : n.value? = some (i : ℚ)) (hpos : 0 < m) (hm : m < 2 ^ (53 : Nat)) :
    (n.remEuclid (ofNat m)).value? = some ((i % m : ℤ) : ℚ) := by
  obtain ⟨negative, k, hfits, rfl, rfl⟩ := exists_finite_of_value? h
  have hlt := Nat.mod_lt k hpos
  unfold remEuclid
  rw [rem_ofNat negative hfits hpos hm]
  dsimp only
  split
  · next hneg =>
    -- a negative remainder: the sum is a positive integer, and smaller than what is added
    obtain ⟨rfl, hrest⟩ := (lt_zero_iff _ _).mp hneg
    have hdiv : (k : ℤ) = (k % m : Nat) + m * (k / m : Nat) := by exact_mod_cast (Nat.mod_add_div k m).symm
    have hsplit : -(k : ℤ) = (m - k % m : Nat) + m * (-(k / m : Nat) - 1) := by
      rw [Nat.cast_sub (Nat.le_of_lt hlt), mul_sub, mul_one, mul_neg]
      omega
    have hmod : -(k : ℤ) % m = (m - k % m : Nat) := by
      rw [hsplit, Int.add_mul_emod_self_left]
      exact Int.emod_eq_of_lt (by omega) (by omega)
    rw [add_ofNat _ hlt hm, value?_finite, if_neg Bool.false_ne_true, if_pos rfl, hmod]
  · next hneg =>
    rw [value?_finite]
    refine congrArg (fun j : ℤ => some (j : ℚ)) ?_
    cases negative with
    | false => simp
    | true =>
      have hrest : k % m = 0 := by simpa [lt_zero_iff] using hneg
      have hdvd : (m : ℤ) ∣ -(k : ℤ) := Int.dvd_neg.mpr (Int.natCast_dvd_natCast.mpr (Nat.dvd_of_mod_eq_zero hrest))
      simp [hrest, Int.emod_eq_zero_of_dvd hdvd]

/-- **A word is made** of an integer that is one. -/
theorem toWord_of_value? (h : n.value? = some ((k : ℤ) : ℚ)) (hk : k < 2 ^ (32 : Nat)) :
    n.toWord = BitVec.ofNat 32 k := by
  obtain ⟨negative, j, hfits, rfl, hj⟩ := exists_finite_of_value? h
  cases negative with
  | true =>
    rw [if_pos rfl] at hj
    obtain rfl : k = 0 := by omega
    rfl
  | false =>
    rw [if_neg Bool.false_ne_true, Int.natCast_inj] at hj
    rw [toWord, if_neg Bool.false_ne_true, Nat.mul_div_cancel _ one_pos, ← hj, Nat.min_eq_left (by omega)]

end Number

/-! ## Values as words -/

/-- **An integer that a word of 32 bits stands for.** -/
def IsWord (i : ℤ) : Prop := -2 ^ 31 ≤ i ∧ i < 2 ^ 31

theorem isWord_toInt (x : BitVec 32) : IsWord x.toInt := ⟨x.le_toInt, x.toInt_lt⟩

theorem toInt_ofInt_of_isWord {i : ℤ} (h : IsWord i) : (BitVec.ofInt 32 i).toInt = i := by
  obtain ⟨hlow, hhigh⟩ := h
  rw [BitVec.toInt_ofInt]
  exact Int.bmod_eq_of_le (by omega) (by omega)

namespace Value

open Number

variable {v : Value} {q : ℚ} {i : ℤ}

/-- **The word of a value, step by step.** -/
def wrapped (v : Value) : ℤ :=
  let n := v.toNumber
  if n.isFinite then (n.trunc.remEuclid (ofNat (2 ^ (32 : Nat)))).toWord.toInt else 0

theorem toInt32_of_value? (h : v.toNumber.value? = some q) : v.toInt32 = (towardZero q).bmod (2 ^ (32 : Nat)) := by
  rw [toInt32, truncate?_of_value? h]

theorem toInt32_of_none (h : v.toNumber.value? = none) : v.toInt32 = 0 ∧ v.wrapped = 0 := by
  unfold toInt32 wrapped
  cases hn : v.toNumber with
  | nan => exact ⟨rfl, rfl⟩
  | infinite negative => exact ⟨rfl, rfl⟩
  | finite negative size =>
    rw [hn] at h
    cases h

/-- **The steps together are one step**: nothing is rounded and nothing saturates on the way. -/
theorem toInt32_eq_wrapped (v : Value) : v.toInt32 = v.wrapped := by
  cases hvalue : v.toNumber.value? with
  | none =>
    obtain ⟨hword, hwrapped⟩ := toInt32_of_none hvalue
    rw [hword, hwrapped]
  | some q =>
    have hfinite : v.toNumber.isFinite = true := by
      cases hn : v.toNumber with
      | finite negative size => rfl
      | _ => rw [hn] at hvalue; cases hvalue
    have hrest := value?_remEuclid (m := 2 ^ (32 : Nat)) (value?_trunc hvalue) (by decide) (by decide)
    obtain ⟨k, hk⟩ :=
      Int.eq_ofNat_of_zero_le (Int.emod_nonneg (towardZero q) (b := ((2 ^ (32 : Nat) : Nat) : ℤ)) (by decide))
    have hlt := Int.emod_lt_of_pos (towardZero q) (b := ((2 ^ (32 : Nat) : Nat) : ℤ)) (by decide)
    rw [hk] at hrest hlt
    unfold wrapped
    dsimp only
    rw [if_pos hfinite, toWord_of_value? hrest (by omega), toInt32_of_value? hvalue, ← BitVec.ofInt_natCast,
      BitVec.toInt_ofInt, ← hk]
    exact (Int.emod_bmod ..).symm

theorem isWord_toInt32 (v : Value) : IsWord v.toInt32 := by
  rw [toInt32_eq_wrapped, wrapped]
  split
  · exact isWord_toInt _
  · exact ⟨by decide, by decide⟩

/-- **A value is the one word that is congruent to its number without the fraction.** -/
theorem toInt32_eq_iff (h : v.toNumber.value? = some q) :
    v.toInt32 = i ↔ IsWord i ∧ i ≡ towardZero q [ZMOD 2 ^ 32] := by
  rw [toInt32_of_value? h, Int.bmod_eq_iff (by decide), Int.modEq_comm, Int.modEq_iff_dvd, IsWord]
  constructor
  · rintro ⟨hlow, hhigh, hdvd⟩
    exact ⟨⟨by omega, by omega⟩, by exact_mod_cast hdvd⟩
  · rintro ⟨⟨hlow, hhigh⟩, hdvd⟩
    exact ⟨by omega, by omega, by exact_mod_cast hdvd⟩

/-- A word is a number as it stands. -/
theorem value?_of_isWord (h : IsWord i) : (ofInt i).value? = some (i : ℚ) := by
  obtain ⟨hlow, hhigh⟩ := h
  exact value?_ofInt (by omega)

/-- A word is read back. -/
theorem toInt32_ofInt (h : IsWord i) : (number (.ofInt i)).toInt32 = i := by
  have hvalue : (number (.ofInt i)).toNumber.value? = some (i : ℚ) := by
    rw [toNumber]
    exact value?_of_isWord h
  rw [toInt32_eq_iff hvalue]
  refine ⟨h, ?_⟩
  have hwhole : towardZero (i : ℚ) = i := by simp [towardZero]
  rw [hwhole]

end Value

namespace Expression

open Number

/-! ## Operators -/

variable {a b : ℤ}

theorem onBits_or (ha : IsWord a) (hb : IsWord b) : BinaryOp.onBits (· ||| ·) a b = a.lor b := by
  rw [BinaryOp.onBits, lor_toInt, toInt_ofInt_of_isWord ha, toInt_ofInt_of_isWord hb]

theorem onBits_and (ha : IsWord a) (hb : IsWord b) : BinaryOp.onBits (· &&& ·) a b = a.land b := by
  rw [BinaryOp.onBits, land_toInt, toInt_ofInt_of_isWord ha, toInt_ofInt_of_isWord hb]

theorem isWord_lor (ha : IsWord a) (hb : IsWord b) : IsWord (a.lor b) := by
  rw [← onBits_or ha hb]
  exact isWord_toInt _

theorem isWord_land (ha : IsWord a) (hb : IsWord b) : IsWord (a.land b) := by
  rw [← onBits_and ha hb]
  exact isWord_toInt _

namespace Tree

variable (fields : Fields) (x y : Tree)

theorem evaluate_bitOr : (binary .bitOr x y).evaluate fields =
    .number (.ofInt ((x.evaluate fields).toInt32.lor (y.evaluate fields).toInt32)) := by
  rw [← onBits_or (Value.isWord_toInt32 _) (Value.isWord_toInt32 _)]
  rfl

theorem evaluate_bitAnd : (binary .bitAnd x y).evaluate fields =
    .number (.ofInt ((x.evaluate fields).toInt32.land (y.evaluate fields).toInt32)) := by
  rw [← onBits_and (Value.isWord_toInt32 _) (Value.isWord_toInt32 _)]
  rfl

/-- The constant zero in an expression. -/
def zero : Tree := .number (.ofNat 0)

/-- Nothing but the word is left of what is combined with zero. -/
theorem evaluate_bitOr_zero : (binary .bitOr x zero).evaluate fields =
    .number (.ofInt (x.evaluate fields).toInt32) := by
  have hzero : (zero.evaluate fields).toInt32 = 0 := by
    show (Value.number (.ofNat 0)).toInt32 = 0
    decide +kernel
  have hlor : ∀ a : ℤ, a.lor 0 = a := by
    intro a
    apply eq_of_testBit_eq
    intro i
    rw [Int.testBit_lor, show (0 : ℤ).testBit i = false from Nat.zero_testBit i, Bool.or_false]
  rw [evaluate_bitOr, hzero, hlor]

/-- **Bitwise operators work on words.** The word of a value is the one integer of 32 bits that is congruent to the
number without its fraction, and zero for a value that is not finite; no step on the way to it rounds or saturates. What
is combined are the bits of the two words. The result is a word, and is a number as it stands; a word that is combined
with zero once more is the same word. -/
theorem bitwise_of_words :
    (∀ v : Value, v.toInt32 = v.wrapped ∧ (v.toNumber.value? = none → v.toInt32 = 0) ∧
      ∀ q, v.toNumber.value? = some q →
        ∀ i, v.toInt32 = i ↔ IsWord i ∧ i ≡ towardZero q [ZMOD 2 ^ 32]) ∧
    (∃ i, i = (x.evaluate fields).toInt32.lor (y.evaluate fields).toInt32 ∧ IsWord i ∧
      (ofInt i).value? = some (i : ℚ) ∧ (binary .bitOr x y).evaluate fields = .number (.ofInt i)) ∧
    (∃ i, i = (x.evaluate fields).toInt32.land (y.evaluate fields).toInt32 ∧ IsWord i ∧
      (ofInt i).value? = some (i : ℚ) ∧ (binary .bitAnd x y).evaluate fields = .number (.ofInt i)) ∧
    (binary .bitOr (binary .bitOr x zero) zero).evaluate fields = (binary .bitOr x zero).evaluate fields := by
  have ha := Value.isWord_toInt32 (x.evaluate fields)
  have hb := Value.isWord_toInt32 (y.evaluate fields)
  have hor := isWord_lor ha hb
  have hand := isWord_land ha hb
  refine ⟨fun v => ⟨v.toInt32_eq_wrapped, fun h => (Value.toInt32_of_none h).1, fun q h i => Value.toInt32_eq_iff h⟩,
    ⟨_, rfl, hor, Value.value?_of_isWord hor, evaluate_bitOr fields x y⟩,
    ⟨_, rfl, hand, Value.value?_of_isWord hand, evaluate_bitAnd fields x y⟩, ?_⟩
  rw [evaluate_bitOr_zero, evaluate_bitOr_zero, Value.toInt32_ofInt ha]

/-- A number below all words, with a fraction. -/
def farBelow : Fields := .ofEntries [("a", .string "-6442450945.5")]

/-- It wraps around to the largest word, of which three bits are left behind a mask. -/
theorem bitwise_of_words_farBelow :
    ((field "a").evaluate farBelow).toNumber.value? = some (-12884901891 / 2) ∧
      ((field "a").evaluate farBelow).toInt32 = 2147483647 ∧
      ∃ i, i = ((field "a").evaluate farBelow).toInt32.land ((number (.ofNat 7)).evaluate farBelow).toInt32 ∧ IsWord i ∧
        (ofInt i).value? = some (i : ℚ) ∧
        (binary .bitAnd (field "a") (number (.ofNat 7))).evaluate farBelow = .number (.ofInt i) := by
  have hvalue : ((field "a").evaluate farBelow).toNumber.value? = some (-12884901891 / 2) := by decide +kernel
  obtain ⟨hvalues, -, hand, -⟩ := bitwise_of_words farBelow (field "a") (number (.ofNat 7))
  refine ⟨hvalue, ((hvalues _).2.2 _ hvalue _).mpr ⟨⟨by decide, by decide⟩, ?_⟩, hand⟩
  have hwhole : towardZero (-12884901891 / 2) = -6442450945 := by decide +kernel
  rw [hwhole]
  decide

end Tree

end Expression

end Databind
