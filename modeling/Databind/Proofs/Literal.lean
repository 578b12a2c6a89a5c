import Databind.Value

/-!
# `Proofs.Literal` — the number at the head of a text

The grammar of decimal literals, apart from any scanner:

    sign? (digits ('.' digits?)? | '.' digits) (('e' | 'E') sign? digits)?

A text may begin with several literals. The scanner takes the longest of them (`Decimal.scan_eq_some_iff`), and none only
if the text begins with none (`Decimal.scan_eq_none_iff`). What stands behind it does not matter.

## Main definitions

* `Decimal.Wording` — the grammar, with the decimal that each literal stands for.
* `Decimal.Longest` — the longest literal at the head of a text.
* `Decimal.Ends` — a text that does not go on with a literal.
-/

namespace Databind

namespace Decimal

/-! ## The grammar -/

/-- Nothing but digits. -/
def Digital (cs : List Char) : Prop := ∀ c ∈ cs, c.isDigit = true

/-- An optional sign, and whether it is negative. -/
inductive SignWording : Bool → List Char → Prop
  | absent : SignWording false []
  | plus : SignWording false ['+']
  | minus : SignWording true ['-']

/-- The digits before and behind the point, of which there is one at least. -/
inductive MantissaWording : List Char → List Char → List Char → Prop
  | whole {whole : List Char} (hne : whole ≠ []) (hwhole : Digital whole) : MantissaWording whole [] whole
  | pointed {whole fraction : List Char} (hne : whole ≠ []) (hwhole : Digital whole) (hfraction : Digital fraction) :
    MantissaWording whole fraction (whole ++ '.' :: fraction)
  | fraction {fraction : List Char} (hne : fraction ≠ []) (hfraction : Digital fraction) :
    MantissaWording [] fraction ('.' :: fraction)

/-- An optional exponent, and the power of ten that it stands for. -/
inductive PowerWording : Int → List Char → Prop
  | absent : PowerWording 0 []
  | exponent {mark : Char} {negative : Bool} {sign digits : List Char} (hmark : mark = 'e' ∨ mark = 'E')
    (hsign : SignWording negative sign) (hne : digits ≠ []) (hdigits : Digital digits) :
    PowerWording (if negative then -(digitsValue digits : Int) else digitsValue digits) (mark :: (sign ++ digits))

/-- **The grammar of decimal literals**, and what each of them stands for. -/
inductive Wording : Decimal → List Char → Prop
  | literal {negative : Bool} {sign whole fraction mantissa : List Char} {power : Int} {exponent : List Char}
    (hsign : SignWording negative sign) (hmantissa : MantissaWording whole fraction mantissa)
    (hpower : PowerWording power exponent) :
    Wording ⟨negative, digitsValue (whole ++ fraction), power - fraction.length⟩ (sign ++ (mantissa ++ exponent))

/-- **The longest literal at the head of a text.** -/
structure Longest (d : Decimal) (literal cs : List Char) : Prop where
  wording : d.Wording literal
  head : literal <+: cs
  longest : ∀ d' literal', Wording d' literal' → literal' <+: cs → literal'.length ≤ literal.length

/-- A text that does not go on with a number. -/
def Ends (behind : List Char) : Prop :=
  ∀ c ∈ behind.head?, c.isDigit = false ∧ c ≠ '.' ∧ c ≠ 'e' ∧ c ≠ 'E'

variable {negative : Bool} {sign whole fraction mantissa exponent literal cs rest behind digits : List Char} {power : Int}
  {d : Decimal}

theorem ends_nil : Ends [] := fun _ hc => nomatch hc

/-! ## Signs -/

theorem exists_sign (cs : List Char) : ∃ sign, SignWording (scanSign cs).1 sign ∧ cs = sign ++ (scanSign cs).2 := by
  unfold scanSign
  split
  · exact ⟨_, .plus, rfl⟩
  · exact ⟨_, .minus, rfl⟩
  · exact ⟨_, .absent, rfl⟩

/-- A sign is read if no second one follows. -/
theorem SignWording.scan (h : SignWording negative sign) (hrest : ∀ c ∈ rest.head?, c ≠ '+' ∧ c ≠ '-') :
    scanSign (sign ++ rest) = (negative, rest) := by
  cases h with
  | absent =>
    rw [List.nil_append]
    unfold scanSign
    split
    · exact absurd rfl (hrest '+' rfl).1
    · exact absurd rfl (hrest '-' rfl).2
    · rfl
  | plus => rfl
  | minus => rfl

/-! ## Runs of digits -/

theorem scanDigits_eq (cs : List Char) : Digital (scanDigits cs).1 ∧ cs = (scanDigits cs).1 ++ (scanDigits cs).2 :=
  ⟨List.all_eq_true.mp List.all_takeWhile, List.takeWhile_append_dropWhile.symm⟩

/-- A run of digits is read through. -/
theorem Digital.scanDigits_append (h : Digital digits) (cs : List Char) :
    scanDigits (digits ++ cs) = (digits ++ (scanDigits cs).1, (scanDigits cs).2) := by
  unfold scanDigits
  rw [List.takeWhile_append_of_pos h, List.dropWhile_append_of_pos h]

theorem scanDigits_of_head (h : ∀ c ∈ cs.head?, c.isDigit = false) : scanDigits cs = ([], cs) := by
  cases cs with
  | nil => rfl
  | cons c rest =>
    unfold scanDigits
    rw [List.takeWhile_cons_of_neg (by simp [h c rfl]), List.dropWhile_cons_of_neg (by simp [h c rfl])]

/-- It is read to its end. -/
theorem Digital.scan (h : Digital digits) (hrest : ∀ c ∈ rest.head?, c.isDigit = false) :
    scanDigits (digits ++ rest) = (digits, rest) := by
  rw [h.scanDigits_append, scanDigits_of_head hrest, List.append_nil]

theorem scanDigits_suffix (cs : List Char) : (scanDigits cs).2 <:+ cs := List.dropWhile_suffix _

/-- A character that is a digit is no sign, no point and no mark of an exponent. -/
theorem ne_of_isDigit {c : Char} (h : c.isDigit = true) : c ≠ '+' ∧ c ≠ '-' ∧ c ≠ '.' ∧ c ≠ 'e' ∧ c ≠ 'E' := by
  refine ⟨?_, ?_, ?_, ?_, ?_⟩ <;> (rintro rfl; revert h; decide)

/-! ## Mantissas -/

theorem not_isDigit_point (cs : List Char) : ∀ c ∈ ('.' :: cs).head?, c.isDigit = false := by
  rintro c ⟨⟩
  decide

theorem scanFraction_of_head (h : ∀ c ∈ cs.head?, c ≠ '.') : scanFraction cs = ([], cs) := by
  unfold scanFraction
  split
  · exact absurd rfl (h '.' rfl)
  · rfl

theorem scanFraction_point (rest : List Char) : scanFraction ('.' :: rest) = scanDigits rest := rfl

theorem scanFraction_suffix (cs : List Char) : (scanFraction cs).2 <:+ cs := by
  unfold scanFraction
  split
  · exact (scanDigits_suffix _).trans (List.suffix_cons _ _)
  · exact List.suffix_rfl

/-- The digits before and behind the point, and the rest. -/
def scanMantissa (cs : List Char) : List Char × List Char × List Char :=
  let (whole, rest) := scanDigits cs
  (whole, scanFraction rest)

theorem exists_mantissa (h : scanMantissa cs = (whole, fraction, rest)) (hne : ¬(whole = [] ∧ fraction = [])) :
    ∃ mantissa, MantissaWording whole fraction mantissa ∧ cs = mantissa ++ rest := by
  unfold scanMantissa at h
  obtain ⟨hwhole, hcs⟩ := scanDigits_eq cs
  generalize scanDigits cs = read at h hwhole hcs
  obtain ⟨digits, behind⟩ := read
  obtain ⟨rfl, hfraction⟩ := Prod.mk.inj h
  -- the digits behind a point may be missing, and so may those before it, but not both
  unfold scanFraction at hfraction
  split at hfraction
  · next behind =>
    obtain ⟨hdigits, hbehind⟩ := scanDigits_eq behind
    rw [hfraction] at hdigits hbehind
    by_cases hnil : digits = []
    · subst hnil
      exact ⟨_, .fraction (fun hnil => hne ⟨rfl, hnil⟩) hdigits, hcs.trans (congrArg ('.' :: ·) hbehind)⟩
    · refine ⟨_, .pointed hnil hwhole hdigits, ?_⟩
      rw [List.append_assoc, List.cons_append]
      exact hcs.trans (congrArg (digits ++ '.' :: ·) hbehind)
  · cases hfraction
    exact ⟨digits, .whole (fun hnil => hne ⟨hnil, rfl⟩) hwhole, hcs⟩

/-- A mantissa is read to its end. -/
theorem MantissaWording.scan (h : MantissaWording whole fraction mantissa)
    (hrest : ∀ c ∈ rest.head?, c.isDigit = false ∧ c ≠ '.') : scanMantissa (mantissa ++ rest) = (whole, fraction, rest) := by
  have hdigit : ∀ c ∈ rest.head?, c.isDigit = false := fun c hc => (hrest c hc).1
  unfold scanMantissa
  cases h with
  | whole hne hwhole =>
    rw [hwhole.scan hdigit]
    exact congrArg (whole, ·) (scanFraction_of_head fun c hc => (hrest c hc).2)
  | pointed hne hwhole hfraction =>
    rw [List.append_assoc, List.cons_append, hwhole.scan (not_isDigit_point _)]
    exact congrArg (whole, ·) (hfraction.scan hdigit)
  | fraction hne hfraction =>
    rw [List.cons_append, scanDigits_of_head (not_isDigit_point _)]
    exact congrArg ([], ·) (hfraction.scan hdigit)

/-- A mantissa is read, and perhaps more of the text behind it. -/
theorem MantissaWording.reaches (h : MantissaWording whole fraction mantissa) (behind : List Char) :
    ∃ whole' fraction' rest, scanMantissa (mantissa ++ behind) = (whole', fraction', rest) ∧
      ¬(whole' = [] ∧ fraction' = []) ∧ rest <:+ behind := by
  unfold scanMantissa
  cases h with
  | whole hne hwhole =>
    rw [hwhole.scanDigits_append]
    exact ⟨_, _, _, rfl, fun hnil => hne (List.append_eq_nil_iff.mp hnil.1).1,
      (scanFraction_suffix _).trans (scanDigits_suffix _)⟩
  | pointed hne hwhole hfraction =>
    rw [List.append_assoc, List.cons_append, hwhole.scan (not_isDigit_point _)]
    dsimp only
    rw [scanFraction_point, hfraction.scanDigits_append]
    exact ⟨_, _, _, rfl, fun hnil => hne hnil.1, scanDigits_suffix _⟩
  | fraction hne hfraction =>
    rw [List.cons_append, scanDigits_of_head (not_isDigit_point _)]
    dsimp only
    rw [scanFraction_point, hfraction.scanDigits_append]
    exact ⟨_, _, _, rfl, fun hnil => hne (List.append_eq_nil_iff.mp hnil.2).1, scanDigits_suffix _⟩

/-! ## Exponents -/

theorem scanExponent_of_head (h : ∀ c ∈ cs.head?, c ≠ 'e' ∧ c ≠ 'E') : scanExponent cs = (0, cs) := by
  unfold scanExponent
  split
  · exact absurd rfl (h 'e' rfl).1
  · exact absurd rfl (h 'E' rfl).2
  · rfl

theorem scanExponent_mark {mark : Char} (hmark : mark = 'e' ∨ mark = 'E') (rest : List Char) :
    scanExponent (mark :: rest) = (scanPower rest).getD (0, mark :: rest) := by
  rcases hmark with rfl | rfl <;> rfl

/-- Without a digit there is no exponent. -/
theorem scanPower_eq (cs : List Char) :
    (scanDigits (scanSign cs).2).1 = [] ∧ scanPower cs = none ∨
      (scanDigits (scanSign cs).2).1 ≠ [] ∧
        scanPower cs = some (if (scanSign cs).1 then -(digitsValue (scanDigits (scanSign cs).2).1 : Int)
          else digitsValue (scanDigits (scanSign cs).2).1, (scanDigits (scanSign cs).2).2) := by
  by_cases hne : (scanDigits (scanSign cs).2).1 = []
  · exact .inl ⟨hne, if_pos hne⟩
  · exact .inr ⟨hne, if_neg hne⟩

theorem exists_power (cs : List Char) :
    ∃ exponent, PowerWording (scanExponent cs).1 exponent ∧ cs = exponent ++ (scanExponent cs).2 := by
  cases cs with
  | nil => exact ⟨[], .absent, rfl⟩
  | cons mark rest =>
    by_cases hmark : mark = 'e' ∨ mark = 'E'
    · rw [scanExponent_mark hmark]
      rcases scanPower_eq rest with ⟨-, hnone⟩ | ⟨hne, hsome⟩
      · rw [hnone]
        exact ⟨[], .absent, rfl⟩
      · obtain ⟨sign, hsign, hrest⟩ := exists_sign rest
        obtain ⟨hdigits, hdigitsEq⟩ := scanDigits_eq (scanSign rest).2
        rw [hsome]
        refine ⟨_, .exponent hmark hsign hne hdigits, ?_⟩
        rw [List.cons_append, List.append_assoc]
        exact congrArg (mark :: ·) (hrest.trans (congrArg (sign ++ ·) hdigitsEq))
    · rw [scanExponent_of_head (by rintro c ⟨⟩; exact not_or.mp hmark)]
      exact ⟨[], .absent, rfl⟩

theorem scanExponent_suffix (cs : List Char) : (scanExponent cs).2 <:+ cs := by
  obtain ⟨exponent, -, hcs⟩ := exists_power cs
  exact ⟨exponent, hcs.symm⟩

/-- Digits are no sign. -/
theorem Digital.head_ne_sign (h : Digital digits) (hne : digits ≠ []) (rest : List Char) :
    ∀ c ∈ (digits ++ rest).head?, c ≠ '+' ∧ c ≠ '-' := by
  cases digits with
  | nil => exact absurd rfl hne
  | cons d digits =>
    rintro c ⟨⟩
    have hd := ne_of_isDigit (h d List.mem_cons_self)
    exact ⟨hd.1, hd.2.1⟩

/-- An exponent is read, and perhaps more digits behind it. -/
theorem PowerWording.scanExponent_append (h : PowerWording power exponent) (hne : exponent ≠ []) (behind : List Char) :
    (scanExponent (exponent ++ behind)).2 = (scanDigits behind).2 ∧
      ((scanDigits behind).1 = [] → (scanExponent (exponent ++ behind)).1 = power) := by
  cases h with
  | absent => exact absurd rfl hne
  | @exponent mark negative sign digits hmark hsign hdigitsNe hdigits =>
    have hread : scanSign (sign ++ (digits ++ behind)) = (negative, digits ++ behind) :=
      hsign.scan (hdigits.head_ne_sign hdigitsNe behind)
    rw [List.cons_append, List.append_assoc, scanExponent_mark hmark]
    rcases scanPower_eq (sign ++ (digits ++ behind)) with ⟨hnil, -⟩ | ⟨-, hsome⟩
    · rw [hread, hdigits.scanDigits_append] at hnil
      exact absurd (List.append_eq_nil_iff.mp hnil).1 hdigitsNe
    · rw [hread, hdigits.scanDigits_append] at hsome
      rw [hsome]
      refine ⟨rfl, fun hnil => ?_⟩
      simp only [hnil, List.append_nil, Option.getD_some]

/-! ## Literals -/

/-- **The scanner reads a sign, a mantissa and an exponent**, and fails without a mantissa only. -/
theorem scan_of_parts (hsign : scanSign cs = (negative, behind)) (hmantissa : scanMantissa behind = (whole, fraction, rest)) :
    scan cs = if whole = [] ∧ fraction = [] then none
      else some (⟨negative, digitsValue (whole ++ fraction), (scanExponent rest).1 - fraction.length⟩,
        (scanExponent rest).2) := by
  unfold scanMantissa at hmantissa
  cases hdigits : scanDigits behind with
  | mk digits behind' =>
    rw [hdigits] at hmantissa
    obtain ⟨rfl, hfraction⟩ := Prod.mk.inj hmantissa
    unfold scan
    rw [hsign]
    dsimp only
    rw [hdigits]
    dsimp only
    rw [hfraction]

/-- **What is read is a literal.** -/
theorem exists_wording_of_scan (h : scan cs = some (d, rest)) : ∃ literal, d.Wording literal ∧ cs = literal ++ rest := by
  obtain ⟨sign, hsign, hcs⟩ := exists_sign cs
  cases hread : scanSign cs with
  | mk negative behind =>
    obtain ⟨⟨whole, fraction, tail⟩, hmantissa⟩ : ∃ read, scanMantissa behind = read := ⟨_, rfl⟩
    rw [hread] at hsign hcs
    rw [scan_of_parts hread hmantissa] at h
    split at h
    · cases h
    · next hne =>
      cases h
      obtain ⟨mantissa, hwording, rfl⟩ := exists_mantissa hmantissa hne
      obtain ⟨exponent, hpower, htail⟩ := exists_power tail
      refine ⟨_, .literal hsign hwording hpower, ?_⟩
      rw [List.append_assoc, List.append_assoc, ← htail]
      exact hcs

/-- A mantissa begins with no sign. -/
theorem MantissaWording.head_ne_sign (h : MantissaWording whole fraction mantissa) (rest : List Char) :
    ∀ c ∈ (mantissa ++ rest).head?, c ≠ '+' ∧ c ≠ '-' := by
  cases h with
  | whole hne hwhole => exact hwhole.head_ne_sign hne rest
  | pointed hne hwhole =>
    rw [List.append_assoc]
    exact hwhole.head_ne_sign hne _
  | fraction =>
    rintro c ⟨⟩
    decide

/-- It has a digit. -/
theorem MantissaWording.not_nil (h : MantissaWording whole fraction mantissa) : ¬(whole = [] ∧ fraction = []) := by
  rintro ⟨hwhole, hfraction⟩
  cases h with
  | whole hne => exact hne hwhole
  | pointed hne => exact hne hwhole
  | fraction hne => exact hne hfraction

/-- An exponent begins with its mark. -/
theorem PowerWording.head (h : PowerWording power exponent) (hne : exponent ≠ []) (rest : List Char) :
    ∀ c ∈ (exponent ++ rest).head?, c.isDigit = false ∧ c ≠ '.' := by
  cases h with
  | absent => exact absurd rfl hne
  | exponent hmark =>
    rintro c ⟨⟩
    rcases hmark with rfl | rfl <;> decide

/-- **A literal is read to its end** if the text does not go on with it. -/
theorem Wording.scan (h : d.Wording literal) (hends : Ends behind) :
    Decimal.scan (literal ++ behind) = some (d, behind) := by
  cases h with
  | @literal negative sign whole fraction mantissa power exponent hsign hmantissa hpower =>
    rw [List.append_assoc, List.append_assoc]
    have hdigits : scanDigits behind = ([], behind) := scanDigits_of_head fun c hc => (hends c hc).1
    have hhead : ∀ c ∈ (exponent ++ behind).head?, c.isDigit = false ∧ c ≠ '.' := by
      by_cases hne : exponent = []
      · rw [hne]
        exact fun c hc => ⟨(hends c hc).1, (hends c hc).2.1⟩
      · exact hpower.head hne behind
    have hexponent : scanExponent (exponent ++ behind) = (power, behind) := by
      by_cases hne : exponent = []
      · cases hpower with
        | absent => exact scanExponent_of_head fun c hc => (hends c hc).2.2
        | exponent => cases hne
      · obtain ⟨hrest, hvalue⟩ := hpower.scanExponent_append hne behind
        rw [hdigits] at hrest hvalue
        exact Prod.ext (hvalue rfl) hrest
    rw [scan_of_parts (hsign.scan (hmantissa.head_ne_sign _)) (hmantissa.scan hhead), if_neg hmantissa.not_nil, hexponent]

/-- **A literal is read, and perhaps more of the text behind it.** -/
theorem Wording.reaches (h : d.Wording literal) (behind : List Char) :
    ∃ d' rest, Decimal.scan (literal ++ behind) = some (d', rest) ∧ rest <:+ behind := by
  cases h with
  | @literal negative sign whole fraction mantissa power exponent hsign hmantissa hpower =>
    rw [List.append_assoc, List.append_assoc]
    have hread := hsign.scan (hmantissa.head_ne_sign (exponent ++ behind))
    by_cases hne : exponent = []
    · -- the mantissa may go on in the text behind it
      subst hne
      obtain ⟨whole', fraction', rest, hmore, hnot, hsuffix⟩ := hmantissa.reaches behind
      rw [scan_of_parts hread hmore, if_neg hnot]
      exact ⟨_, _, rfl, (scanExponent_suffix rest).trans hsuffix⟩
    · rw [scan_of_parts hread (hmantissa.scan (hpower.head hne behind)), if_neg hmantissa.not_nil]
      refine ⟨_, _, rfl, ?_⟩
      rw [(hpower.scanExponent_append hne behind).1]
      exact scanDigits_suffix behind

/-- A literal has one meaning. -/
theorem Wording.unique {d' : Decimal} (h : d.Wording literal) (h' : d'.Wording literal) : d = d' := by
  have hread := h.scan ends_nil
  rw [h'.scan ends_nil] at hread
  cases hread
  rfl

/-- **The scanner reads the longest literal** at the head of a text. -/
theorem scan_eq_some_iff : scan cs = some (d, rest) ↔ ∃ literal, cs = literal ++ rest ∧ Longest d literal cs := by
  constructor
  · intro h
    obtain ⟨literal, hwording, rfl⟩ := exists_wording_of_scan h
    refine ⟨literal, rfl, hwording, List.prefix_append .., ?_⟩
    rintro d' literal' hwording' ⟨behind, hbehind⟩
    obtain ⟨d'', rest', hscan, hsuffix⟩ := hwording'.reaches behind
    rw [hbehind, h] at hscan
    cases hscan
    have hlength := congrArg List.length hbehind
    rw [List.length_append, List.length_append] at hlength
    have := hsuffix.length_le
    omega
  · rintro ⟨literal, rfl, hwording, -, hlongest⟩
    obtain ⟨d', rest', hscan, hsuffix⟩ := hwording.reaches rest
    obtain ⟨literal', hwording', heq⟩ := exists_wording_of_scan hscan
    -- what is read is no longer than the literal, and no shorter
    have hle := hlongest d' literal' hwording' ⟨rest', heq.symm⟩
    have hlength := congrArg List.length heq
    rw [List.length_append, List.length_append] at hlength
    have := hsuffix.length_le
    obtain ⟨rfl, rfl⟩ := List.append_inj heq (by omega)
    rw [hscan, hwording.unique hwording']

/-- It reads none only if there is none. -/
theorem scan_eq_none_iff : scan cs = none ↔ ∀ d literal, Wording d literal → ¬ literal <+: cs := by
  constructor
  · rintro h d literal hwording ⟨behind, rfl⟩
    obtain ⟨d', rest, hscan, -⟩ := hwording.reaches behind
    rw [h] at hscan
    cases hscan
  · intro hnone
    cases hscan : scan cs with
    | none => rfl
    | some read =>
      obtain ⟨d, rest⟩ := read
      obtain ⟨literal, hwording, hcs⟩ := exists_wording_of_scan hscan
      exact absurd ⟨rest, hcs.symm⟩ (hnone _ _ hwording)

/-- Letters are no literal. -/
theorem SignWording.scan_eq_none (h : SignWording negative sign)
    (hrest : ∀ c ∈ rest.head?, c ≠ '+' ∧ c ≠ '-' ∧ c.isDigit = false ∧ c ≠ '.') : Decimal.scan (sign ++ rest) = none := by
  have hmantissa : scanMantissa rest = ([], [], rest) := by
    unfold scanMantissa
    rw [scanDigits_of_head fun c hc => (hrest c hc).2.2.1]
    exact congrArg ([], ·) (scanFraction_of_head fun c hc => (hrest c hc).2.2.2)
  rw [scan_of_parts (h.scan fun c hc => ⟨(hrest c hc).1, (hrest c hc).2.1⟩) hmantissa, if_pos ⟨rfl, rfl⟩]

end Decimal

/-- A literal is a whole text that denotes a number. -/
theorem Number.ofLiteral?_of_wording {d : Decimal} {literal : List Char} (h : d.Wording literal) :
    ofLiteral? literal = some d.toNumber := by
  have hscan := h.scan Decimal.ends_nil
  rw [List.append_nil] at hscan
  rw [ofLiteral?, hscan]

end Databind
