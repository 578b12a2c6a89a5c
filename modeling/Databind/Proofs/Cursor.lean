import Databind.Proofs.Literal

/-!
# `Proofs.Cursor` — the number at the head of a text, found byte by byte

A text is kept as the bytes of its characters. The end of the literal at its head is found with an offset that walks over
these bytes: past a sign, past digits and a point, past an exponent, and back again where the digits are missing that
would make the last step part of a literal. What lies before the offset is cut off and read as a whole. A cut inside of a
character gives nothing at all.

All characters of literals are single bytes, and these bytes occur in no other character. So the offset always stands in
front of a character (`Cursor.At`), where the scanner over characters stands, and the text is never cut inside of one
(`Cursor.floatPrefix?_eq`).

## Main definitions

* `Cursor.bytes` — the bytes of a text.
* `Cursor.cut?` — a text that is cut at an offset.
* `Cursor.literalEnd?` — the walk.
* `Cursor.floatPrefix?` — the reading of what the walk leaves behind.
* `Cursor.At` — where the offset stands.
-/

namespace Databind.Cursor

open Decimal

/-! ## The walk -/

/-- The bytes of a text. -/
def bytes (cs : List Char) : List UInt8 := cs.flatMap String.utf8EncodeChar

/-- The text before an offset and behind it; nothing for an offset inside of a character. -/
def cut? : List Char → Nat → Option (List Char × List Char)
  | cs, 0 => some ([], cs)
  | [], _ + 1 => none
  | c :: rest, i + 1 =>
    if c.utf8Size ≤ i + 1 then (cut? rest (i + 1 - c.utf8Size)).map fun (front, behind) => (c :: front, behind)
    else none

/-- Whether a character of one byte stands at an offset. -/
def StandsAt (bs : List UInt8) (i : Nat) (c : Char) : Prop := bs[i]? = some (UInt8.ofNat c.toNat)

instance (bs : List UInt8) (i : Nat) (c : Char) : Decidable (StandsAt bs i c) := inferInstanceAs (Decidable (_ = _))

/-- Whether a digit stands at an offset. -/
def DigitAt (bs : List UInt8) (i : Nat) : Prop := ∃ b ∈ bs[i]?, '0'.toNat ≤ b.toNat ∧ b.toNat ≤ '9'.toNat

instance (bs : List UInt8) (i : Nat) : Decidable (DigitAt bs i) := inferInstanceAs (Decidable (∃ b ∈ bs[i]?, _))

theorem DigitAt.lt_length {bs : List UInt8} {i : Nat} (h : DigitAt bs i) : i < bs.length := by
  obtain ⟨b, hb, -⟩ := h
  exact (List.getElem?_eq_some_iff.mp hb).1

/-- Past a sign, if there is one. -/
def pastSign (bs : List UInt8) (i : Nat) : Nat := if StandsAt bs i '+' ∨ StandsAt bs i '-' then i + 1 else i

/-- Past the digits from an offset on. -/
def pastDigits (bs : List UInt8) (i : Nat) : Nat := if DigitAt bs i then pastDigits bs (i + 1) else i
termination_by bs.length - i
decreasing_by
  next h =>
    have := h.lt_length
    omega

/-- Past the digits before and behind a point; nothing without a digit. -/
def pastMantissa? (bs : List UInt8) (i : Nat) : Option Nat :=
  let whole := pastDigits bs i
  let fraction := pastDigits bs (whole + 1)
  if StandsAt bs whole '.' then
    if 0 < whole - i + (fraction - (whole + 1)) then some fraction else none
  else if 0 < whole - i then some whole
  else none

/-- Past an exponent, if there is one with a digit. -/
def pastExponent (bs : List UInt8) (i : Nat) : Nat :=
  let digits := pastSign bs (i + 1)
  if StandsAt bs i 'e' ∨ StandsAt bs i 'E' then
    if digits < pastDigits bs digits then pastDigits bs digits else i
  else i

/-- **Where the literal at the head of a text ends**, if there is one. -/
def literalEnd? (bs : List UInt8) : Option Nat := (pastMantissa? bs (pastSign bs 0)).map (pastExponent bs)

/-- **The number at the head of a text**, where the text is cut at the offsets of the walk. -/
def floatPrefix? (s : String) : Option Number :=
  let cs := Text.trimStart s.toList
  let bs := bytes cs
  (cut? cs (pastSign bs 0)).bind fun (_, rest) =>
    if "Infinity".toList.isPrefixOf rest then some (.infinite (StandsAt bs 0 '-'))
    else
      match literalEnd? bs with
      | some i => (cut? cs i).map fun (literal, _) => (Number.ofLiteral? literal).getD .nan
      | none => some .nan

/-! ## Where the offset stands -/

/-- **The offset stands in front of the rest of a text.** -/
def At (cs : List Char) (i : Nat) (rest : List Char) : Prop := ∃ front, cs = front ++ rest ∧ i = (bytes front).length

variable {cs front rest behind whole fraction : List Char} {i : Nat} {c k : Char}

theorem length_bytes_cons (c : Char) (cs : List Char) : (bytes (c :: cs)).length = c.utf8Size + (bytes cs).length := by
  rw [bytes, List.flatMap_cons, List.length_append, String.length_utf8EncodeChar]
  rfl

theorem bytes_append (front rest : List Char) : bytes (front ++ rest) = bytes front ++ bytes rest := List.flatMap_append

/-- A character of one byte is its own code point, and any other one begins with a byte that no such character has. -/
theorem exists_encode (c : Char) :
    ∃ b more, String.utf8EncodeChar c = b :: more ∧ (c.toNat < 128 ∧ b.toNat = c.toNat ∧ more = [] ∨
      128 ≤ c.toNat ∧ 128 ≤ b.toNat) := by
  have hvalue : c.val.toNat = c.toNat := rfl
  unfold String.utf8EncodeChar
  dsimp only
  rw [hvalue]
  split
  · exact ⟨_, _, rfl, .inl ⟨by omega, by simp only [UInt8.toNat_ofNat']; omega, rfl⟩⟩
  · split
    · exact ⟨_, _, rfl, .inr ⟨by omega, by simp only [UInt8.toNat_ofNat']; omega⟩⟩
    · split
      · exact ⟨_, _, rfl, .inr ⟨by omega, by simp only [UInt8.toNat_ofNat']; omega⟩⟩
      · exact ⟨_, _, rfl, .inr ⟨by omega, by simp only [UInt8.toNat_ofNat']; omega⟩⟩

/-- The digits, as code points. -/
theorem isDigit_iff (c : Char) : c.isDigit = true ↔ '0'.toNat ≤ c.toNat ∧ c.toNat ≤ '9'.toNat := by
  simp only [Char.isDigit, Bool.and_eq_true, decide_eq_true_eq]
  exact Iff.rfl

theorem toNat_nine_lt : '9'.toNat < 128 := by decide

theorem cut?_eq_some_iff : cut? cs i = some (front, rest) ↔ cs = front ++ rest ∧ i = (bytes front).length := by
  -- the cut takes a whole character at a time, and so does the induction
  induction cs, i using cut?.induct generalizing front with
  | case1 cs =>
    rw [cut?]
    constructor
    · rintro ⟨⟩
      exact ⟨rfl, rfl⟩
    · rintro ⟨rfl, hlength⟩
      cases front with
      | nil => rfl
      | cons c front =>
        rw [length_bytes_cons] at hlength
        have := c.utf8Size_pos
        omega
  | case2 i =>
    rw [cut?]
    refine ⟨fun h => (nomatch h), ?_⟩
    rintro ⟨hcs, hlength⟩
    rw [(List.append_eq_nil_iff.mp hcs.symm).1] at hlength
    cases hlength
  | case3 c cs i hfits ih =>
    rw [cut?, if_pos hfits, Option.map_eq_some_iff]
    constructor
    · rintro ⟨⟨front', behind⟩, hcut, heq⟩
      cases heq
      obtain ⟨rfl, hlength⟩ := ih.mp hcut
      rw [length_bytes_cons]
      exact ⟨rfl, by omega⟩
    · rintro ⟨hcs, hlength⟩
      cases front with
      | nil => cases hlength
      | cons c' front =>
        obtain ⟨rfl, rfl⟩ := List.cons.inj hcs
        rw [length_bytes_cons] at hlength
        exact ⟨(front, rest), ih.mpr ⟨rfl, by omega⟩, rfl⟩
  | case4 c cs i hfits =>
    rw [cut?, if_neg hfits]
    refine ⟨fun h => (nomatch h), ?_⟩
    rintro ⟨hcs, hlength⟩
    cases front with
    | nil => cases hlength
    | cons c' front =>
      obtain ⟨rfl, rfl⟩ := List.cons.inj hcs
      rw [length_bytes_cons] at hlength
      omega

theorem at_zero (cs : List Char) : At cs 0 cs := ⟨[], rfl, rfl⟩

namespace At

/-- **The text is cut where the offset stands.** -/
theorem cut? (h : At cs i rest) : ∃ front, cs = front ++ rest ∧ Cursor.cut? cs i = some (front, rest) := by
  obtain ⟨front, rfl, hlength⟩ := h
  exact ⟨front, rfl, cut?_eq_some_iff.mpr ⟨rfl, hlength⟩⟩

theorem getElem? (h : At cs i rest) : (bytes cs)[i]? = (bytes rest).head? := by
  obtain ⟨front, rfl, rfl⟩ := h
  rw [bytes_append, List.getElem?_append_right (Nat.le_refl _), Nat.sub_self, List.head?_eq_getElem?]

/-- A step over a character of one byte. -/
theorem next (h : At cs i (c :: rest)) (hc : c.toNat < 128) : At cs (i + 1) rest := by
  obtain ⟨front, rfl, rfl⟩ := h
  refine ⟨front ++ [c], List.append_cons .., ?_⟩
  obtain ⟨b, more, hbytes, ⟨-, -, rfl⟩ | ⟨hmore, -⟩⟩ := exists_encode c
  · rw [bytes_append, List.length_append, bytes, bytes, List.flatMap_singleton, hbytes]
    rfl
  · omega

/-- The byte at the offset and the character behind it are the same if one of them is a character of one byte. -/
theorem byte (h : At cs i (c :: rest)) :
    ∃ b, (bytes cs)[i]? = some b ∧ (c.toNat < 128 ∧ b.toNat = c.toNat ∨ 128 ≤ c.toNat ∧ 128 ≤ b.toNat) := by
  obtain ⟨b, more, hbytes, hcases⟩ := exists_encode c
  refine ⟨b, ?_, hcases.imp_left fun h => ⟨h.1, h.2.1⟩⟩
  rw [h.getElem?, bytes, List.flatMap_cons, hbytes]
  rfl

/-- **Which character of one byte stands at the offset.** -/
theorem standsAt_iff (h : At cs i rest) (hk : k.toNat < 128) : StandsAt (bytes cs) i k ↔ rest.head? = some k := by
  have hbyte : (UInt8.ofNat k.toNat).toNat = k.toNat := by
    rw [UInt8.toNat_ofNat']
    omega
  unfold StandsAt
  cases rest with
  | nil =>
    rw [h.getElem?]
    exact iff_of_false (fun h => nomatch h) fun h => nomatch h
  | cons c rest =>
    obtain ⟨b, hb, hcases⟩ := h.byte
    rw [hb, List.head?_cons, Option.some_inj, Option.some_inj, ← UInt8.toNat_inj, hbyte, ← Char.toNat_inj]
    omega

/-- Whether a digit stands at the offset. -/
theorem digitAt_iff (h : At cs i rest) : DigitAt (bytes cs) i ↔ ∃ c ∈ rest.head?, c.isDigit = true := by
  unfold DigitAt
  cases rest with
  | nil =>
    rw [h.getElem?]
    exact iff_of_false (fun ⟨_, hb, _⟩ => nomatch hb) fun ⟨_, hc, _⟩ => nomatch hc
  | cons c rest =>
    obtain ⟨b, hb, hcases⟩ := h.byte
    have hnine := toNat_nine_lt
    rw [hb]
    constructor
    · rintro ⟨_, ⟨⟩, hle⟩
      exact ⟨c, rfl, (isDigit_iff c).mpr (by omega)⟩
    · rintro ⟨_, ⟨⟩, hc⟩
      have := (isDigit_iff c).mp hc
      exact ⟨b, rfl, by omega⟩

/-! ## One step of the walk is one of the scanner -/

/-- The walk passes a sign where the scanner does. -/
theorem pastSign (h : At cs i rest) : At cs (Cursor.pastSign (bytes cs) i) (scanSign rest).2 := by
  have hplus := h.standsAt_iff (k := '+') (by decide)
  have hminus := h.standsAt_iff (k := '-') (by decide)
  unfold scanSign
  split
  · rw [Cursor.pastSign, if_pos (.inl (hplus.mpr rfl))]
    exact h.next (by decide)
  · rw [Cursor.pastSign, if_pos (.inr (hminus.mpr rfl))]
    exact h.next (by decide)
  · next hnotPlus hnotMinus =>
    rw [Cursor.pastSign, if_neg]
    · exact h
    · rintro (hstands | hstands)
      · obtain ⟨more, rfl⟩ := List.head?_eq_some_iff.mp (hplus.mp hstands)
        exact hnotPlus _ rfl
      · obtain ⟨more, rfl⟩ := List.head?_eq_some_iff.mp (hminus.mp hstands)
        exact hnotMinus _ rfl

/-- It passes the same digits. -/
theorem pastDigits (h : At cs i rest) :
    At cs (Cursor.pastDigits (bytes cs) i) (scanDigits rest).2 ∧
      Cursor.pastDigits (bytes cs) i = i + (scanDigits rest).1.length := by
  -- on what is left of the text: the offset grows by one with each digit of it
  induction rest generalizing i with
  | nil =>
    rw [Cursor.pastDigits, if_neg fun hdigit => by obtain ⟨_, ⟨⟩, -⟩ := h.digitAt_iff.mp hdigit]
    exact ⟨h, rfl⟩
  | cons c rest ih =>
    by_cases hc : c.isDigit = true
    · have hone : c.toNat < 128 := Nat.lt_of_le_of_lt ((isDigit_iff c).mp hc).2 toNat_nine_lt
      obtain ⟨hat, hlength⟩ := ih (h.next hone)
      have hdigit : Digital [c] := List.forall_mem_singleton.mpr hc
      have hscan : scanDigits (c :: rest) = (c :: (scanDigits rest).1, (scanDigits rest).2) := hdigit.scanDigits_append rest
      rw [Cursor.pastDigits, if_pos (h.digitAt_iff.mpr ⟨c, rfl, hc⟩), hscan]
      refine ⟨hat, ?_⟩
      rw [hlength, List.length_cons]
      omega
    · have hstop : ¬DigitAt (bytes cs) i := fun hdigit => by
        obtain ⟨_, ⟨⟩, hdigit⟩ := h.digitAt_iff.mp hdigit
        exact hc hdigit
      rw [Cursor.pastDigits, if_neg hstop, scanDigits_of_head (by rintro _ ⟨⟩; exact Bool.not_eq_true _ ▸ hc)]
      exact ⟨h, rfl⟩

/-- It passes the same mantissa, and finds none where the scanner finds no digit. -/
theorem pastMantissa? (h : At cs i rest) (hscan : scanMantissa rest = (whole, fraction, behind)) :
    whole = [] ∧ fraction = [] ∧ Cursor.pastMantissa? (bytes cs) i = none ∨
      ¬(whole = [] ∧ fraction = []) ∧ ∃ j, Cursor.pastMantissa? (bytes cs) i = some j ∧ At cs j behind := by
  unfold scanMantissa at hscan
  obtain ⟨hwhole, hlength⟩ := h.pastDigits
  generalize scanDigits rest = read at hscan hwhole hlength
  obtain ⟨digits, rest'⟩ := read
  obtain ⟨rfl, hfraction⟩ := Prod.mk.inj hscan
  unfold Cursor.pastMantissa?
  dsimp only at hwhole hlength ⊢
  rw [hlength] at hwhole ⊢
  have hpoint := hwhole.standsAt_iff (k := '.') (by decide)
  unfold scanFraction at hfraction
  split at hfraction
  · next rest' =>
    obtain ⟨hat, hmore⟩ := (hwhole.next (by decide)).pastDigits
    rw [hfraction] at hat hmore
    dsimp only at hat hmore
    rw [hmore] at hat
    rw [if_pos (hpoint.mpr rfl), hmore]
    by_cases hnil : digits = [] ∧ fraction = []
    · -- a lone point is no mantissa
      obtain ⟨rfl, rfl⟩ := hnil
      exact .inl ⟨rfl, rfl, if_neg (by simp)⟩
    · have hpos : 0 < (digits ++ fraction).length :=
        List.length_pos_iff.mpr fun happend => hnil (List.append_eq_nil_iff.mp happend)
      rw [List.length_append] at hpos
      exact .inr ⟨hnil, _, if_pos (by omega), hat⟩
  · next hnone =>
    cases hfraction
    rw [if_neg fun hstands => by
      obtain ⟨more, rfl⟩ := List.head?_eq_some_iff.mp (hpoint.mp hstands)
      exact hnone _ rfl]
    by_cases hnil : digits = []
    · subst hnil
      exact .inl ⟨rfl, rfl, if_neg (by simp)⟩
    · have hpos := List.length_pos_iff.mpr hnil
      exact .inr ⟨fun h => hnil h.1, _, if_pos (by omega), hwhole⟩

/-- It passes the same exponent, or none. -/
theorem pastExponent (h : At cs i rest) : At cs (Cursor.pastExponent (bytes cs) i) (scanExponent rest).2 := by
  have hlower := h.standsAt_iff (k := 'e') (by decide)
  have hupper := h.standsAt_iff (k := 'E') (by decide)
  unfold Cursor.pastExponent
  simp only [hlower, hupper]
  by_cases hmark : rest.head? = some 'e' ∨ rest.head? = some 'E'
  · obtain ⟨mark, more, hmark', rfl⟩ : ∃ mark more, (mark = 'e' ∨ mark = 'E') ∧ rest = mark :: more := by
      rcases hmark with hmark | hmark <;> obtain ⟨more, rfl⟩ := List.head?_eq_some_iff.mp hmark
      · exact ⟨_, more, .inl rfl, rfl⟩
      · exact ⟨_, more, .inr rfl, rfl⟩
    have hone : mark.toNat < 128 := by rcases hmark' with rfl | rfl <;> decide
    obtain ⟨hat, hlength⟩ := (h.next hone).pastSign.pastDigits
    rw [if_pos hmark, scanExponent_mark hmark']
    rcases scanPower_eq more with ⟨hnil, hnone⟩ | ⟨hne, hsome⟩
    · -- without a digit the walk goes back in front of the mark, over the sign as well
      rw [hnone, if_neg (by rw [hlength, hnil]; simp)]
      exact h
    · have hpos := List.length_pos_iff.mpr hne
      rw [hsome, if_pos (by omega)]
      exact hat
  · rw [if_neg hmark, scanExponent_of_head fun c hc => ?_]
    · exact h
    · exact ⟨fun heq => hmark (.inl (heq ▸ hc)), fun heq => hmark (.inr (heq ▸ hc))⟩

end At

/-! ## The walk is the scanner -/

/-- **The walk ends where the scanner does**, and finds no literal if the scanner finds none. -/
theorem literalEnd?_bytes (cs : List Char) :
    Decimal.scan cs = none ∧ literalEnd? (bytes cs) = none ∨
      ∃ d rest i, Decimal.scan cs = some (d, rest) ∧ literalEnd? (bytes cs) = some i ∧ At cs i rest := by
  have hsign := (at_zero cs).pastSign
  obtain ⟨negative, tail, hscanSign⟩ : ∃ negative tail, scanSign cs = (negative, tail) := ⟨_, _, rfl⟩
  obtain ⟨whole, fraction, behind, hscan⟩ : ∃ whole fraction behind, scanMantissa tail = (whole, fraction, behind) :=
    ⟨_, _, _, rfl⟩
  rw [hscanSign] at hsign
  unfold literalEnd?
  rw [scan_of_parts hscanSign hscan]
  rcases hsign.pastMantissa? hscan with ⟨hwhole, hfraction, hnone⟩ | ⟨hne, j, hsome, hat⟩
  · rw [if_pos ⟨hwhole, hfraction⟩, hnone]
    exact .inl ⟨rfl, rfl⟩
  · rw [if_neg hne, hsome]
    exact .inr ⟨_, _, _, rfl, rfl, hat.pastExponent⟩

/-- A sign is negative if it is a minus sign. -/
theorem scanSign_negative (cs : List Char) : (scanSign cs).1 = decide (cs.head? = some '-') := by
  unfold scanSign
  split
  · rfl
  · rfl
  · next hminus =>
    refine (decide_eq_false fun hhead => ?_).symm
    obtain ⟨more, rfl⟩ := List.head?_eq_some_iff.mp hhead
    exact hminus _ rfl

/-- **The text is never cut inside of a character**, and what is read is the number at its head. -/
theorem floatPrefix?_eq (s : String) : floatPrefix? s = some (floatPrefix s) := by
  unfold floatPrefix? floatPrefix
  dsimp only
  generalize Text.trimStart s.toList = cs
  obtain ⟨front, -, hsign⟩ := (at_zero cs).pastSign.cut?
  rw [hsign, Option.bind_some]
  dsimp only
  split
  · rw [scanSign_negative, decide_eq_decide.mpr ((at_zero cs).standsAt_iff (by decide))]
  · rcases literalEnd?_bytes cs with ⟨hscan, hnone⟩ | ⟨d, rest, i, hscan, hsome, hat⟩
    · rw [hscan, hnone]
    · obtain ⟨literal, hcs, hcut⟩ := hat.cut?
      obtain ⟨literal', hwording, hcs'⟩ := exists_wording_of_scan hscan
      obtain rfl : literal = literal' := List.append_cancel_right (hcs.symm.trans hcs')
      rw [hscan, hsome]
      dsimp only
      rw [hcut, Option.map_some, Number.ofLiteral?_of_wording hwording]
      rfl

end Databind.Cursor
