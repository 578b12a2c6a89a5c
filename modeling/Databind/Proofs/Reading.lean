import Databind.Proofs.Comparison
import Databind.Proofs.Painting
import Databind.Proofs.Placement
import Databind.Proofs.Prefix

/-!
# `Proofs.Reading` — what is read off an element that was painted

Painting and reading are two tables over the same attributes. After bindings were shown in order, an element shows on
each aspect what was painted there last (`Arena.Shows`), and reading it gives that back. Coerced to the kind of value that
was shown it is the same value, for truth values on properties, for texts, and for whole numbers that are written out.

## Main definitions

* `Number.Written` — whole numbers that are written out digit by digit.
* `Attribute.Mirrors` — a value comes back from an attribute as it was shown there.
-/

namespace Databind

-- Powers are the powers of natural numbers themselves, whatever algebra is in scope.
attribute [local instance (2000)] instPowNat

/-! ## Whole numbers -/

/-- A whole number that is written out digit by digit. -/
def Number.Written (n : Number) : Prop :=
  ∃ negative size, n = .finite negative size ∧ size.units % one = 0 ∧ size.units < wholeLimit * one

namespace Decimal

/-- The digits of a number, perhaps behind a minus sign, are a literal. -/
theorem wording_signed (negative : Bool) (k : Nat) :
    Wording ⟨negative, k, 0⟩ (Number.signed negative (Number.digits k)) := by
  have hmantissa : MantissaWording (Number.digits k) [] (Number.digits k) :=
    .whole Nat.toDigits_ne_nil fun _ hd => Text.isDigit_of_mem_digits hd
  cases negative with
  | true => simpa [Number.signed, digitsValue_digits] using Wording.literal .minus hmantissa .absent
  | false => simpa [Number.signed, digitsValue_digits] using Wording.literal .absent hmantissa .absent

end Decimal

/-- The text of a number that is written out begins with no blank, and with no word. -/
theorem Number.head_signed (negative : Bool) (k : Nat) :
    ∃ c rest, signed negative (digits k) = c :: rest ∧ Text.isBlank c = false := by
  cases hdigits : digits k with
  | nil => exact absurd hdigits Nat.toDigits_ne_nil
  | cons c rest =>
    have hc : c.isDigit = true := Text.isDigit_of_mem_digits (hdigits ▸ List.mem_cons_self)
    cases negative with
    | true => exact ⟨'-', c :: rest, rfl, by decide⟩
    | false => exact ⟨c, rest, rfl, Expression.isBlank_of_isDigit hc⟩

/-- **The number at the head of a text** that begins with written digits. -/
theorem floatPrefix_signed (negative : Bool) (k : Nat) {behind : List Char} (h : Decimal.Ends behind) :
    floatPrefix (String.ofList (Number.signed negative (Number.digits k) ++ behind)) =
      Decimal.toNumber ⟨negative, k, 0⟩ := by
  obtain ⟨c, rest, hhead, hblank⟩ := Number.head_signed negative k
  have htrim : Text.trimStart (Number.signed negative (Number.digits k) ++ behind) =
      Number.signed negative (Number.digits k) ++ behind := by
    rw [hhead, List.cons_append, Text.trimStart, List.dropWhile_cons_of_neg (by rw [hblank]; decide)]
  have hscan : Decimal.scan (Text.trimStart (String.ofList (Number.signed negative (Number.digits k) ++ behind)).toList) =
      some (⟨negative, k, 0⟩, behind) := by
    rw [String.toList_ofList, htrim]
    exact (Decimal.wording_signed negative k).scan h
  exact floatPrefix_of_scan hscan

/-- **A number that is written out is written as an integer**: with the digits of a literal that stands for the number
itself, or for the zero without a sign. -/
theorem Number.Written.exists_int {n : Number} (h : n.Written) : ∃ i : Int, n.truncate? = some i ∧
    n.display = signed (decide (i < 0)) (digits i.natAbs) ∧
      Decimal.toNumber ⟨decide (i < 0), i.natAbs, 0⟩ = if n.isZero then .zero false else n := by
  obtain ⟨negative, size, rfl, hwhole, hlimit⟩ := h
  refine ⟨_, rfl, ?_⟩
  by_cases hzero : size.units = 0
  · -- both zeros are written and read as the one without a sign
    have hnone : (if negative then -((size.units / one : Nat) : Int) else (size.units / one : Nat)) = 0 := by simp [hzero]
    rw [hnone]
    simp only [display, isZero, hzero, if_true, beq_self_eq_true]
    exact ⟨rfl, rfl⟩
  · have hunits : size.units / one * one = size.units := Nat.div_mul_cancel (Nat.dvd_of_mod_eq_zero hwhole)
    have hpos : 0 < size.units / one := Nat.pos_of_ne_zero fun h => hzero (by rw [← hunits, h, Nat.zero_mul])
    generalize hk : size.units / one = k at hunits hpos
    have hsign : decide ((if negative then -(k : Int) else k) < 0) = negative := by cases negative <;> simp [hpos]
    have habs : (if negative then -(k : Int) else k).natAbs = k := by cases negative <;> simp
    rw [hsign, habs, Decimal.toNumber_whole, hunits, round_of_fits negative size.fits]
    simp [display, isZero, hzero, hwhole, hlimit, hk]

/-- Without its sign a zero is the same number. -/
theorem Number.equal_unsigned {n : Number} (h : n.isNaN = false) :
    (if n.isZero then .zero false else n).equal n = true := by
  cases n with
  | nan => cases h
  | infinite negative => simp only [isZero, equal, position?, beq_self_eq_true, Bool.false_eq_true, if_false]
  | finite negative size =>
    by_cases hzero : size.units = 0
    · cases negative <;> simp [isZero, hzero, equal, position?, zero, signedUnits]
    · simp [isZero, hzero, equal, position?]

theorem Number.Written.isNaN_eq_false {n : Number} (h : n.Written) : n.isNaN = false := by
  obtain ⟨negative, size, rfl, -⟩ := h
  rfl

/-- **A whole number that is written out is read back.** -/
theorem Number.Written.floatPrefix {n : Number} (h : n.Written) {behind : List Char} (hends : Decimal.Ends behind) :
    (Databind.floatPrefix (String.ofList (n.display ++ behind))).equal n = true := by
  obtain ⟨i, -, hdisplay, hvalue⟩ := h.exists_int
  rw [hdisplay, floatPrefix_signed _ _ hends, hvalue]
  exact equal_unsigned h.isNaN_eq_false

namespace Arena

variable {arena : Arena} {x : Nat} {attr : Attribute} {v : Value}

/-! ## What is read -/

/-- An element without children reads as its own text. -/
theorem textContent_of_children (h : arena.children x = []) : arena.textContent x = (arena.content x).text := by
  rw [textContent, withDescendants, h]
  simp

/-- What reads on an attribute on which a value is shown. -/
theorem readBack_of_shows (h : arena.Shows x attr v) :
    (attr = .text ∨ attr = .value → arena.readBack x attr = .string v.displayOrEmpty) ∧
    (∀ name, attr = .generic name → v.isUndefined = false → arena.readBack x attr = .string v.display) ∧
    (∀ name, attr = .property name → arena.readBack x attr = .bool v.truthy) ∧
    ∀ dimension, attr = .dimension dimension → v.isUndefined = false → v.toNumber.isFinite = true →
      arena.readBack x attr = .number v.toNumber := by
  refine ⟨?_, ?_, ?_, ?_⟩
  · rintro (rfl | rfl)
    · rw [readBack, textContent_of_children (h.2 rfl), h.1.1]
    · exact congrArg Value.string h.1
  · rintro name rfl hdefined
    have hshown : (arena.content x).attribute? name = if v.isUndefined then none else some v.display := h.1
    rw [readBack, hshown, hdefined]
    rfl
  · rintro name rfl
    exact congrArg Value.bool h.1
  · rintro dimension rfl hdefined hfinite
    exact congrArg Value.number (h.1 hdefined hfinite)

end Arena

/-- An attribute that shows values as texts that can be read. -/
def Attribute.IsTextual (attr : Attribute) : Prop := (attr = .text ∨ attr = .value) ∨ ∃ name, attr = .generic name

/-- **Values that come back from an attribute as they were shown there**: a truth value from a property, negated or not,
and, as they are, a text from a text, and a whole number that is written out from a text or a dimension. -/
def Attribute.Mirrors (attr : Attribute) (negate : Bool) : Value → Prop
  | .bool _ => ∃ name, attr = .property name
  | .string _ => negate = false ∧ attr.IsTextual
  | .number n => negate = false ∧ n.Written ∧ (attr.IsTextual ∨ ∃ dimension, attr = .dimension dimension)
  | _ => False

/-- **Such a value is read and coerced to itself** from an element that shows it. -/
theorem Attribute.Mirrors.coerce {attr : Attribute} {negate : Bool} {v : Value} (h : attr.Mirrors negate v)
    {arena : Arena} {x : Nat} (hshows : arena.Shows x attr (if negate then .bool !v.truthy else v)) :
    ((arena.readBack x attr).coerce v.kind negate).isUndefined = false ∧
      v.strictEqual ((arena.readBack x attr).coerce v.kind negate) = true := by
  obtain ⟨htext, hgeneric, hproperty, hdimension⟩ := Arena.readBack_of_shows hshows
  have htextual : ∀ {w : Value}, attr.IsTextual → negate = false → v = w → w.isUndefined = false →
      w.displayOrEmpty = w.display → arena.readBack x attr = .string w.display := by
    rintro w (hshown | ⟨name, hname⟩) rfl rfl hdefined hdisplay
    · exact (htext hshown).trans (congrArg Value.string hdisplay)
    · exact hgeneric name hname hdefined
  cases v with
  | bool b =>
    obtain ⟨name, hname⟩ := h
    rw [hproperty name hname]
    cases negate <;> cases b <;> exact ⟨rfl, rfl⟩
  | string text =>
    rw [htextual h.2 h.1 rfl rfl rfl]
    exact ⟨rfl, beq_self_eq_true text⟩
  | number n =>
    obtain ⟨rfl, hwritten, hshown | ⟨dimension, hname⟩⟩ := h
    · rw [htextual hshown rfl rfl rfl rfl]
      refine ⟨rfl, ?_⟩
      have hread := hwritten.floatPrefix Decimal.ends_nil
      rw [List.append_nil] at hread
      rw [Number.equal_comm] at hread
      exact hread
    · obtain ⟨sign, size, rfl, -⟩ := hwritten
      rw [hdimension dimension hname rfl rfl]
      exact ⟨rfl, by simp [Value.coerce, Value.kind, Value.strictEqual, Value.toNumber, Number.equal, Number.position?]⟩
  | undefined => exact h.elim
  | null => exact h.elim

end Databind
