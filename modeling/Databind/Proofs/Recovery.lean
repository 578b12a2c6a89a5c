import Databind.Proofs.Reading
import Databind.Proofs.Rewording

/-!
# `Proofs.Recovery` — whole numbers that come back from their text

A whole number below the limit of plain digits is shown as the integer that it is, far beyond the integers that all have
a number of their own. Both readings of text give it back: the one of a whole text, and the one of the number at its head,
whatever stands behind it that does not go on with a number. A negative zero is shown without its sign, so it comes back as
the other zero, which is equal to it.
-/

namespace Databind

-- Powers are the powers of natural numbers themselves, whatever algebra is in scope.
attribute [local instance (2000)] instPowNat

namespace Number

/-- Whole numbers below the limit are written out. -/
theorem written_of_truncate? {n : Number} {i : Int} (hn : n.isIntegral = true) (hi : n.truncate? = some i)
    (hlimit : i.natAbs < wholeLimit) : n.Written := by
  cases n with
  | nan => cases hi
  | infinite negative => cases hi
  | finite negative size =>
    have habs : i.natAbs = size.units / one := by
      rw [← Option.some.inj hi]
      generalize size.units / one = k
      cases negative <;> simp
    refine ⟨negative, size, rfl, beq_iff_eq.mp hn, ?_⟩
    rwa [← Nat.div_lt_iff_lt_mul one_pos, ← habs]

/-- An integer is written with the digits of its size, behind a minus sign if it is negative. -/
theorem toList_toString (i : Int) : (toString i).toList = signed (decide (i < 0)) (digits i.natAbs) := by
  cases i with
  | ofNat k =>
    have hnot : ¬Int.ofNat k < 0 := by simp
    simp only [hnot, decide_false, signed]
    exact Nat.toList_repr
  | negSucc k =>
    simp only [Int.negSucc_lt_zero, decide_true, signed, toString, Int.repr]
    simp [digits]

variable {negative : Bool} {k : Nat} {c : Char}

/-- A written integer is made of digits and minus signs. -/
theorem mem_signed (hc : c ∈ signed negative (digits k)) : c = '-' ∨ c.isDigit = true := by
  have hdigit : c ∈ digits k → c.isDigit = true := Text.isDigit_of_mem_digits
  cases negative with
  | false => exact .inr (hdigit hc)
  | true => exact (List.mem_cons.mp hc).imp_right hdigit

theorem snug_signed (negative : Bool) (k : Nat) : Text.Snug (signed negative (digits k)) := by
  have hblank : ∀ c ∈ signed negative (digits k), Text.isBlank c = false := by
    intro c hc
    obtain rfl | hdigit := mem_signed hc
    · decide
    · exact Expression.isBlank_of_isDigit hdigit
  exact ⟨fun c hc => hblank c (List.mem_of_mem_head? hc), fun c hc => hblank c (List.mem_of_mem_getLast? hc)⟩

/-- It has no letters that change their case. -/
theorem lowered_signed (negative : Bool) (k : Nat) :
    lowered (signed negative (digits k)) = signed negative (digits k) := by
  have hsame : ∀ c ∈ signed negative (digits k), c.toLower = id c := by
    intro c hc
    obtain rfl | hdigit := mem_signed hc
    · decide
    · exact toLower_of_isDigit hdigit
  rw [lowered, List.map_congr_left hsame, List.map_id]

end Number

/-- **A written integer is read whole** as what its digits stand for. -/
theorem Value.numberOfText_signed (negative : Bool) (k : Nat) :
    numberOfText (String.ofList (Number.signed negative (Number.digits k))) = Decimal.toNumber ⟨negative, k, 0⟩ := by
  obtain ⟨c, rest, hhead, -⟩ := Number.head_signed negative k
  have hne : Number.signed negative (Number.digits k) ≠ [] := hhead ▸ List.cons_ne_nil c rest
  -- every word that is no literal has an `n` in it
  have hletter : 'n' ∉ Number.signed negative (Number.digits k) := fun hn => by
    obtain heq | hdigit := Number.mem_signed hn
    · cases heq
    · cases hdigit
  have hword : ∀ {word : List Char}, 'n' ∈ word → Number.signed negative (Number.digits k) ≠ word := by
    rintro word hmem rfl
    exact hletter hmem
  have hliteral : readNumber? (Number.signed negative (Number.digits k)) =
      some (Decimal.toNumber ⟨negative, k, 0⟩) := by
    rw [readNumber?, Number.lowered_signed, if_neg (not_or.mpr ⟨hword (by decide), hword (by decide)⟩),
      if_neg (hword (by decide)), if_neg (not_or.mpr ⟨hword (by decide), hword (by decide)⟩)]
    exact Number.ofLiteral?_of_wording (Decimal.wording_signed negative k)
  unfold numberOfText
  rw [String.toList_ofList, Text.trimChars_eq_self (Number.snug_signed negative k)]
  dsimp only
  rw [if_neg hne, hliteral]
  rfl

/-- **Whole numbers come back from their text.** A whole number with a size below `10 ^ 21` is shown as the integer that it
is. Read as a whole text, or at the head of a text that does not go on with a digit, a point or an exponent, this is the
same number: equal to it, and with the same sign unless it is zero. -/
theorem Number.recovered_of_integral {n : Number} {i : Int} (hintegral : n.isIntegral = true)
    (hi : n.truncate? = some i) (hsmall : i.natAbs < 10 ^ (21 : Nat)) :
    (Value.number n).display = toString i ∧
      ((Value.string (Value.number n).display).toNumber.equal n = true ∧
        (Value.string (Value.number n).display).toNumber = if n.isZero then .zero false else n) ∧
      ∀ behind : String, (∀ c ∈ behind.toList.head?, c.isDigit = false ∧ c ≠ '.' ∧ c ≠ 'e' ∧ c ≠ 'E') →
        (floatPrefix ((Value.number n).display ++ behind)).equal n = true ∧
          floatPrefix ((Value.number n).display ++ behind) = if n.isZero then .zero false else n := by
  have hwritten := written_of_truncate? hintegral hi hsmall
  have hequal := equal_unsigned hwritten.isNaN_eq_false
  obtain ⟨j, hj, hdisplay, hvalue⟩ := hwritten.exists_int
  obtain rfl : j = i := Option.some.inj (hj.symm.trans hi)
  have hshown : (Value.number n).display = String.ofList (signed (decide (j < 0)) (digits j.natAbs)) :=
    congrArg String.ofList hdisplay
  have hwhole : (Value.string (Value.number n).display).toNumber = if n.isZero then .zero false else n := by
    rw [hshown, Value.toNumber, Value.numberOfText_signed, hvalue]
  refine ⟨?_, ⟨hwhole ▸ hequal, hwhole⟩, fun behind hends => ?_⟩
  · rw [hshown, ← toList_toString, String.ofList_toList]
  · have hhead : floatPrefix ((Value.number n).display ++ behind) = if n.isZero then .zero false else n := by
      rw [hshown, ← String.ofList_toList (s := behind), ← String.ofList_append, floatPrefix_signed _ _ hends, hvalue]
    exact ⟨hhead ▸ hequal, hhead⟩

/-- The number next to `- 2 ^ 69` on the side of zero is far beyond the integers that all have a number of their own. The
negative zero comes back as the other one. -/
theorem recovered_of_integral_large :
    (Value.number (.ofInt (-590295810358705586176))).display = "-590295810358705586176" ∧
      (Value.string (Value.number (.ofInt (-590295810358705586176))).display).toNumber =
        .ofInt (-590295810358705586176) ∧
      floatPrefix ((Value.number (.ofInt (-590295810358705586176))).display ++ "px") =
        .ofInt (-590295810358705586176) ∧
      (Value.string (Value.number (.zero true)).display).toNumber = .zero false := by
  have hlarge : (Number.ofInt (-590295810358705586176)).isZero = false := by decide +kernel
  obtain ⟨hshown, ⟨-, hwhole⟩, hhead⟩ := Number.recovered_of_integral (n := .ofInt (-590295810358705586176))
    (i := -590295810358705586176) (by decide +kernel) (by decide +kernel) (by decide +kernel)
  obtain ⟨-, ⟨-, hzero⟩, -⟩ := Number.recovered_of_integral (n := .zero true) (i := 0) (by decide +kernel)
    (by decide +kernel) (by decide +kernel)
  rw [hlarge, if_neg Bool.false_ne_true] at hwhole hhead
  refine ⟨hshown.trans (by decide +kernel), hwhole, (hhead "px" ?_).2, hzero⟩
  rintro c ⟨⟩
  decide

end Databind
