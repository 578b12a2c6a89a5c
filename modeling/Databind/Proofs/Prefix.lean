import Databind.Proofs.Cursor
import Databind.Proofs.Spelling
import Databind.Proofs.Trimming

/-!
# `Proofs.Prefix` — the number at the head of a text

Behind its first blanks, a text begins with a signed `Infinity`, or with literals of which the longest counts, or with no
number (`Head`). This is what is read (`floatPrefix_reads_longest`), with a cursor over bytes as well as with the scanner
over characters, and nothing behind the literal has a part in it.

A whole text may also be read as a number. Where this gives one, it is the one at the head of the text
(`floatPrefix_eq_toNumber`), but for some words for infinity that only the reading of the whole text knows.

## Main definitions

* `Infinite` — a text that begins with a signed `Infinity`.
* `Head` — the number that a text begins with.
* `ForeignInfinity` — the words that are told apart by the two readings.
-/

namespace Databind

open Decimal

/-! ## The number at the head of a text -/

/-- A text that begins with a signed `Infinity`. -/
def Infinite (negative : Bool) (cs : List Char) : Prop :=
  ∃ sign behind, SignWording negative sign ∧ cs = sign ++ ("Infinity".toList ++ behind)

/-- **The number that a text begins with**: an infinity in full, or what the longest literal denotes. -/
inductive Head (cs : List Char) : Number → Prop
  | infinite {negative : Bool} (hword : Infinite negative cs) : Head cs (.infinite negative)
  | literal {d : Decimal} {literal : List Char} {n : Number} (hword : ∀ negative, ¬ Infinite negative cs)
    (hlongest : Longest d literal cs) (hread : Number.ofLiteral? literal = some n) : Head cs n
  | absent (hword : ∀ negative, ¬ Infinite negative cs) (hnone : ∀ d literal, Wording d literal → ¬ literal <+: cs) :
    Head cs .nan

section

variable {s : String} {negative : Bool}

theorem floatPrefix_of_infinite (h : Infinite negative (Text.trimStart s.toList)) : floatPrefix s = .infinite negative := by
  obtain ⟨sign, behind, hsign, hcs⟩ := h
  have hread : scanSign (Text.trimStart s.toList) = (negative, "Infinity".toList ++ behind) :=
    hcs ▸ hsign.scan (by rintro c ⟨⟩; decide)
  unfold floatPrefix
  simp only [hread]
  exact if_pos (List.isPrefixOf_iff_prefix.mpr (List.prefix_append _ _))

theorem isPrefixOf_scanSign (h : ∀ negative, ¬ Infinite negative (Text.trimStart s.toList)) :
    "Infinity".toList.isPrefixOf (scanSign (Text.trimStart s.toList)).2 = false := by
  rw [← Bool.not_eq_true, List.isPrefixOf_iff_prefix]
  rintro ⟨behind, hbehind⟩
  obtain ⟨sign, hsign, hcs⟩ := exists_sign (Text.trimStart s.toList)
  exact h _ ⟨sign, behind, hsign, hcs.trans (congrArg (sign ++ ·) hbehind.symm)⟩

/-- No literal begins with a letter. -/
theorem scan_eq_none_of_infinite {cs : List Char} (h : Infinite negative cs) : Decimal.scan cs = none := by
  obtain ⟨sign, behind, hsign, rfl⟩ := h
  exact hsign.scan_eq_none (by rintro c ⟨⟩; decide)

theorem floatPrefix_of_scan {d : Decimal} {rest : List Char}
    (h : Decimal.scan (Text.trimStart s.toList) = some (d, rest)) : floatPrefix s = d.toNumber := by
  have hword := isPrefixOf_scanSign (s := s) fun negative hinfinite => by
    rw [scan_eq_none_of_infinite hinfinite] at h
    cases h
  unfold floatPrefix
  simp only [hword, h, Bool.false_eq_true, if_false]

theorem floatPrefix_of_scan_eq_none (h : Decimal.scan (Text.trimStart s.toList) = none)
    (hinfinite : ∀ negative, ¬ Infinite negative (Text.trimStart s.toList)) : floatPrefix s = .nan := by
  have hword := isPrefixOf_scanSign hinfinite
  unfold floatPrefix
  simp only [hword, h, Bool.false_eq_true, if_false]

end

theorem Decimal.Longest.scan {d : Decimal} {literal cs : List Char} (h : Longest d literal cs) :
    ∃ rest, cs = literal ++ rest ∧ Decimal.scan cs = some (d, rest) := by
  obtain ⟨rest, rfl⟩ := h.head
  exact ⟨rest, rfl, scan_eq_some_iff.mpr ⟨literal, rfl, h⟩⟩

/-- What is read is a number that the text begins with. -/
theorem head_floatPrefix (s : String) : Head (Text.trimStart s.toList) (floatPrefix s) := by
  by_cases hinfinite : ∃ negative, Infinite negative (Text.trimStart s.toList)
  · obtain ⟨negative, h⟩ := hinfinite
    rw [floatPrefix_of_infinite h]
    exact .infinite h
  · rw [not_exists] at hinfinite
    cases hscan : Decimal.scan (Text.trimStart s.toList) with
    | none =>
      rw [floatPrefix_of_scan_eq_none hscan hinfinite]
      exact .absent hinfinite (scan_eq_none_iff.mp hscan)
    | some read =>
      obtain ⟨literal, -, hlongest⟩ := scan_eq_some_iff.mp hscan
      rw [floatPrefix_of_scan hscan]
      exact .literal hinfinite hlongest (Number.ofLiteral?_of_wording hlongest.wording)

/-- There is only one. -/
theorem Head.eq_floatPrefix {s : String} {n : Number} (h : Head (Text.trimStart s.toList) n) : floatPrefix s = n := by
  cases h with
  | infinite hword => exact floatPrefix_of_infinite hword
  | literal hword hlongest hread =>
    obtain ⟨rest, -, hscan⟩ := hlongest.scan
    rw [Number.ofLiteral?_of_wording hlongest.wording] at hread
    rw [floatPrefix_of_scan hscan]
    exact Option.some.inj hread
  | absent hword hnone => exact floatPrefix_of_scan_eq_none (scan_eq_none_iff.mpr hnone) hword

/-- **What is read is what the text begins with.** The cursor over its bytes reads the same and stands inside of no
character. What it cuts off is the longest literal, which denotes a number; and two texts that begin with the same literal
are read as the same number, whatever comes behind it. -/
theorem floatPrefix_reads_longest (s : String) :
    (∀ n, floatPrefix s = n ↔ Head (Text.trimStart s.toList) n) ∧
    Cursor.floatPrefix? s = some (floatPrefix s) ∧
    (∀ i, Cursor.literalEnd? (Cursor.bytes (Text.trimStart s.toList)) = some i →
      ∃ d literal rest, Cursor.cut? (Text.trimStart s.toList) i = some (literal, rest) ∧
        Longest d literal (Text.trimStart s.toList) ∧ Number.ofLiteral? literal = some (floatPrefix s)) ∧
    ∀ d d' literal s', Longest d literal (Text.trimStart s.toList) → Longest d' literal (Text.trimStart s'.toList) →
      floatPrefix s' = floatPrefix s := by
  refine ⟨fun n => ⟨fun h => h ▸ head_floatPrefix s, Head.eq_floatPrefix⟩, Cursor.floatPrefix?_eq s, ?_, ?_⟩
  · intro i hend
    rcases Cursor.literalEnd?_bytes (Text.trimStart s.toList) with ⟨-, hnone⟩ | ⟨d, rest, j, hscan, hsome, hat⟩
    · rw [hnone] at hend
      cases hend
    · obtain rfl : j = i := Option.some.inj (hsome.symm.trans hend)
      obtain ⟨literal, hcs, hcut⟩ := hat.cut?
      obtain ⟨literal', hcs', hlongest⟩ := scan_eq_some_iff.mp hscan
      obtain rfl : literal = literal' := List.append_cancel_right (hcs.symm.trans hcs')
      refine ⟨d, literal, rest, hcut, hlongest, ?_⟩
      rw [floatPrefix_of_scan hscan]
      exact Number.ofLiteral?_of_wording hlongest.wording
  · intro d d' literal s' h h'
    obtain ⟨rest, -, hscan⟩ := h.scan
    obtain ⟨rest', -, hscan'⟩ := h'.scan
    rw [floatPrefix_of_scan hscan, floatPrefix_of_scan hscan', h.wording.unique h'.wording]

/-- A literal with all its parts, and what stands behind it in two texts. -/
theorem floatPrefix_reads_longest_measure :
    Longest ⟨true, 15, 2⟩ "-1.5e3".toList (Text.trimStart "  -1.5e3x".toList) ∧
      Longest ⟨true, 15, 2⟩ "-1.5e3".toList (Text.trimStart "-1.5e3e+".toList) ∧
      floatPrefix "-1.5e3e+" = floatPrefix "  -1.5e3x" := by
  have hfirst : Longest ⟨true, 15, 2⟩ "-1.5e3".toList (Text.trimStart "  -1.5e3x".toList) := by
    obtain ⟨literal, hcs, hlongest⟩ := scan_eq_some_iff.mp
      (by decide : Decimal.scan (Text.trimStart "  -1.5e3x".toList) = some (⟨true, 15, 2⟩, ['x']))
    exact List.append_cancel_right (hcs.symm.trans (by decide : _ = "-1.5e3".toList ++ ['x'])) ▸ hlongest
  have hsecond : Longest ⟨true, 15, 2⟩ "-1.5e3".toList (Text.trimStart "-1.5e3e+".toList) := by
    obtain ⟨literal, hcs, hlongest⟩ := scan_eq_some_iff.mp
      (by decide : Decimal.scan (Text.trimStart "-1.5e3e+".toList) = some (⟨true, 15, 2⟩, ['e', '+']))
    exact List.append_cancel_right (hcs.symm.trans (by decide : _ = "-1.5e3".toList ++ ['e', '+'])) ▸ hlongest
  exact ⟨hfirst, hsecond, (floatPrefix_reads_longest "  -1.5e3x").2.2.2 _ _ _ _ hfirst hsecond⟩

/-! ## Two readings of a text -/

/-- **A foreign infinity**: `inf` or `infinity` in any letter case, perhaps behind a sign, other than `Infinity` itself
and other than a bare `inf`. -/
def ForeignInfinity (negative : Bool) (cs : List Char) : Prop :=
  ∃ sign word, SignWording negative sign ∧ cs = sign ++ word ∧
    (Number.lowered word = "inf".toList ∨ Number.lowered word = "infinity".toList) ∧
    word ≠ "Infinity".toList ∧ Number.lowered cs ≠ "inf".toList

theorem toLower_of_isDigit {c : Char} (h : c.isDigit = true) : c.toLower = c := by
  unfold Char.toLower
  simp only [Char.isDigit, Bool.and_eq_true, decide_eq_true_eq] at h
  grind

/-- An `i` in either case begins neither a sign nor a number. -/
theorem ne_of_toLower {c : Char} (h : c.toLower = 'i') : c ≠ '+' ∧ c ≠ '-' ∧ c.isDigit = false ∧ c ≠ '.' := by
  refine ⟨?_, ?_, ?_, ?_⟩
  · rintro rfl
    cases h
  · rintro rfl
    cases h
  · rw [← Bool.not_eq_true]
    intro hdigit
    rw [toLower_of_isDigit hdigit] at h
    subst h
    cases hdigit
  · rintro rfl
    cases h

/-- A word for infinity begins with an `i`. -/
theorem head_of_lowered {word : List Char}
    (h : Number.lowered word = "inf".toList ∨ Number.lowered word = "infinity".toList) (behind : List Char) :
    ∀ c ∈ (word ++ behind).head?, c ≠ '+' ∧ c ≠ '-' ∧ c.isDigit = false ∧ c ≠ '.' := by
  cases word with
  | nil => rcases h with h | h <;> cases h
  | cons c rest =>
    rintro c ⟨⟩
    rcases h with h | h <;> exact ne_of_toLower (List.cons.inj h).1

theorem ends_of_allBlank {blanks : List Char} (h : Text.AllBlank blanks) : Ends blanks := by
  intro c hc
  have hblank := h c (List.mem_of_mem_head? hc)
  refine ⟨?_, ?_, ?_, ?_⟩
  · rw [← Bool.not_eq_true]
    intro hdigit
    rw [Expression.isBlank_of_isDigit hdigit] at hblank
    cases hblank
  all_goals
    rintro rfl
    revert hblank
    decide

section

variable {cs blanks : List Char} {negative : Bool} {n : Number}

/-- **What a whole text is read as.** -/
theorem Value.readNumber?_cases (h : readNumber? cs = some n) (hn : n ≠ .nan) :
    (∃ negative sign, SignWording negative sign ∧ cs = sign ++ "Infinity".toList ∧ n = .infinite negative) ∨
      (∃ d : Decimal, d.Wording cs ∧ n = d.toNumber) ∨ ∃ negative, ForeignInfinity negative cs ∧ n = .infinite negative := by
  unfold readNumber? at h
  split at h
  · next hcs =>
    cases h
    rcases hcs with rfl | rfl
    · exact .inl ⟨false, _, .absent, rfl, rfl⟩
    · exact .inl ⟨false, _, .plus, rfl, rfl⟩
  · next hpositive =>
    split at h
    · next hcs =>
      cases h
      subst hcs
      exact .inl ⟨true, _, .minus, rfl, rfl⟩
    · next hnegative =>
      split at h
      · cases h
      · next hbare =>
        unfold Number.ofLiteral? at h
        split at h
        · next d hscan =>
          cases h
          obtain ⟨literal, hwording, rfl⟩ := exists_wording_of_scan hscan
          rw [List.append_nil]
          exact .inr (.inl ⟨d, hwording, rfl⟩)
        · obtain ⟨sign, hsign, hcs⟩ := exists_sign cs
          dsimp only at h
          split at h
          · next hword =>
            cases h
            refine .inr (.inr ⟨_, ⟨sign, _, hsign, hcs, hword, fun heq => ?_, fun heq => hbare (.inr heq)⟩, rfl⟩)
            -- the word itself was told apart above, behind any sign
            rw [heq] at hcs
            generalize (scanSign cs).1 = negative at hsign
            cases hsign with
            | absent => exact hpositive (.inl hcs)
            | plus => exact hpositive (.inr hcs)
            | minus => exact hnegative hcs
          · split at h
            · cases h
              exact absurd rfl hn
            · cases h

/-- The sign and the word of a foreign infinity. -/
theorem ForeignInfinity.scanSign (h : ForeignInfinity negative cs) (blanks : List Char) :
    ∃ sign word, SignWording negative sign ∧ cs = sign ++ word ∧
      Decimal.scanSign (cs ++ blanks) = (negative, word ++ blanks) ∧ Decimal.scan (cs ++ blanks) = none ∧
      (Number.lowered word = "inf".toList ∨ Number.lowered word = "infinity".toList) ∧ word ≠ "Infinity".toList := by
  obtain ⟨sign, word, hsign, rfl, hword, hne, -⟩ := h
  have hhead := head_of_lowered hword blanks
  refine ⟨sign, word, hsign, rfl, ?_, ?_, hword, hne⟩
  · rw [List.append_assoc]
    exact hsign.scan fun c hc => ⟨(hhead c hc).1, (hhead c hc).2.1⟩
  · rw [List.append_assoc]
    exact hsign.scan_eq_none hhead

/-- A foreign infinity is no `Infinity`, whatever blanks stand behind it. -/
theorem ForeignInfinity.not_infinite (h : ForeignInfinity negative cs) (hblanks : Text.AllBlank blanks) (negative' : Bool) :
    ¬ Infinite negative' (cs ++ blanks) := by
  rintro ⟨sign', behind, hsign', heq⟩
  obtain ⟨sign, word, -, -, hscan, -, hword, hne⟩ := h.scanSign blanks
  have hread : Decimal.scanSign (cs ++ blanks) = (negative', "Infinity".toList ++ behind) :=
    heq ▸ hsign'.scan (by rintro c ⟨⟩; decide)
  rw [hscan] at hread
  obtain ⟨-, hwords⟩ := Prod.mk.inj hread
  rcases hword with hword | hword
  · -- the rest of the long word would have to be blank
    have hlength : word.length = ['I', 'n', 'f'].length := by
      rw [← List.length_map (f := Char.toLower), ← Number.lowered, hword]
      rfl
    have hshort : word ++ blanks = ['I', 'n', 'f'] ++ (['i', 'n', 'i', 't', 'y'] ++ behind) := hwords
    obtain ⟨-, hbehind⟩ := List.append_inj hshort hlength
    have hi : Text.isBlank 'i' = true := hblanks 'i' (hbehind ▸ List.mem_cons_self)
    cases hi
  · have hlength : word.length = "Infinity".toList.length := by
      rw [← List.length_map (f := Char.toLower), ← Number.lowered, hword]
      rfl
    exact hne (List.append_inj hwords hlength).1

end

section

variable {s : String}

/-- Behind its first blanks, a text that is not blank begins with what trimming leaves of it. -/
theorem Text.exists_trimStart_eq (hblank : ¬ AllBlank s.toList) :
    ∃ blanks, AllBlank blanks ∧ trimChars s.toList ≠ [] ∧ trimStart s.toList = trimChars s.toList ++ blanks := by
  obtain ⟨front, blanks, hfront, hblanks, hsnug, heq⟩ := exists_snug s.toList
  have hne : trimChars s.toList ≠ [] := by
    intro hnil
    rw [hnil, List.append_nil] at heq
    exact hblank (heq ▸ hfront.append hblanks)
  refine ⟨blanks, hblanks, hne, ?_⟩
  generalize trimChars s.toList = core at heq hsnug hne
  rw [heq, List.append_assoc]
  refine trimStart_append hfront _ ?_
  cases core with
  | nil => exact absurd rfl hne
  | cons c rest => exact hsnug.head

/-- **The two readings of a text agree**, where the reading of the whole text gives a number, for all texts but the foreign
infinities: the one reading takes these for infinities, and the other finds no number in them. -/
theorem floatPrefix_eq_toNumber (hblank : ¬ Text.AllBlank s.toList) (hnumber : (Value.string s).toNumber ≠ .nan) :
    ((∀ negative, ¬ ForeignInfinity negative (Text.trimChars s.toList)) → floatPrefix s = (Value.string s).toNumber) ∧
    ∀ negative, ForeignInfinity negative (Text.trimChars s.toList) →
      (Value.string s).toNumber = .infinite negative ∧ floatPrefix s = .nan := by
  obtain ⟨blanks, hblanks, hne, hstart⟩ := Text.exists_trimStart_eq hblank
  obtain ⟨n, hread, hvalue⟩ : ∃ n, Value.readNumber? (Text.trimChars s.toList) = some n ∧ (Value.string s).toNumber = n := by
    have htext : (Value.string s).toNumber = (Value.readNumber? (Text.trimChars s.toList)).getD .nan := if_neg hne
    cases hread : Value.readNumber? (Text.trimChars s.toList) with
    | none =>
      rw [hread] at htext
      exact absurd htext hnumber
    | some n =>
      rw [hread] at htext
      exact ⟨n, rfl, htext⟩
  have hforeign {negative : Bool} (h : ForeignInfinity negative (Text.trimChars s.toList)) : floatPrefix s = .nan := by
    obtain ⟨sign, word, -, -, -, hnone, -⟩ := h.scanSign blanks
    refine floatPrefix_of_scan_eq_none (hstart ▸ hnone) ?_
    rw [hstart]
    exact h.not_infinite hblanks
  rw [hvalue] at hnumber ⊢
  -- an infinity in full, a literal, or an infinity in other words; what is read at the head is the first two only
  rcases Value.readNumber?_cases hread hnumber with ⟨negative, sign, hsign, hcs, rfl⟩ | ⟨d, hwording, rfl⟩ | ⟨negative, h, rfl⟩
  · have hinfinite : Infinite negative (Text.trimStart s.toList) :=
      ⟨sign, blanks, hsign, by rw [hstart, hcs, List.append_assoc]⟩
    refine ⟨fun _ => floatPrefix_of_infinite hinfinite, fun negative' h => ?_⟩
    exact absurd (hstart ▸ hinfinite) (h.not_infinite hblanks negative)
  · have hscan := hwording.scan (ends_of_allBlank hblanks)
    rw [← hstart] at hscan
    refine ⟨fun _ => floatPrefix_of_scan hscan, fun negative h => ?_⟩
    obtain ⟨sign, word, -, -, -, hnone, -⟩ := h.scanSign blanks
    rw [hstart, hnone] at hscan
    cases hscan
  · refine ⟨fun hnone => absurd h (hnone negative), fun negative' h' => ⟨?_, hforeign h'⟩⟩
    obtain ⟨sign, word, -, -, hsign, -⟩ := h.scanSign []
    obtain ⟨sign', word', -, -, hsign', -⟩ := h'.scanSign []
    rw [hsign] at hsign'
    rw [(Prod.mk.inj hsign').1]

end

/-- An exponent, and blanks at both ends. -/
theorem floatPrefix_eq_toNumber_padded :
    ¬ Text.AllBlank " -2.50e1 ".toList ∧ (Value.string " -2.50e1 ").toNumber ≠ .nan ∧
      floatPrefix " -2.50e1 " = (Value.string " -2.50e1 ").toNumber := by
  have hnumber : (Value.string " -2.50e1 ").toNumber ≠ .nan := by decide +kernel
  refine ⟨by decide, hnumber, (floatPrefix_eq_toNumber (by decide) hnumber).1 ?_⟩
  intro negative h
  obtain ⟨sign, word, -, -, -, hnone, -⟩ := h.scanSign []
  revert hnone
  decide +kernel

/-- **A text with two readings.** A bare `inf` is told apart and denotes nothing; behind a sign it is an infinity to the
reading of the whole text, and nothing to the other. -/
theorem readings_of_signed_inf :
    ¬ Text.AllBlank "-inf".toList ∧ (Value.string "-inf").toNumber = .infinite true ∧ floatPrefix "-inf" = .nan :=
  ⟨by decide, by decide +kernel, by decide +kernel⟩

end Databind
