import Databind.Text.Alphanumeric
import Databind.Text.Blank

/-!
# `Proofs.Trimming` — blanks at the ends of a text

Trimming takes the blanks at both ends of a text and nothing else: what is left is the one part between blanks that
neither begins nor ends with a blank. No blank is a letter or a numeral.

## Main definitions

* `Text.AllBlank` — a text of blanks.
* `Text.Snug` — a text without blanks at its ends.
-/

namespace Databind.Text

/-! ## Blanks -/

/-- The blanks that are no ASCII characters. -/
def blankRanges : List (Nat × Nat) :=
  [(0x85, 0x85), (0xa0, 0xa0), (0x1680, 0x1680), (0x2000, 0x200a), (0x2028, 0x2029), (0x202f, 0x202f), (0x205f, 0x205f),
    (0x3000, 0x3000)]

/-- No range of letters and numerals meets one of blanks. -/
theorem inRanges_of_isBlank {c : Char} (h : isBlank c = true) (hascii : 128 ≤ c.toNat) :
    inRanges alphanumericRanges c.toNat = false := by
  have hblank : ∃ b ∈ blankRanges, b.1 ≤ c.toNat ∧ c.toNat ≤ b.2 := by
    simp only [isBlank, Bool.or_eq_true, Bool.and_eq_true, decide_eq_true_eq, beq_iff_eq] at h
    simp only [blankRanges, List.mem_cons, List.not_mem_nil, or_false, exists_eq_or_imp, exists_eq_left]
    omega
  have hapart : alphanumericRanges.toList.all
      (fun r => blankRanges.all fun b => Nat.blt b.2 r.1 || Nat.blt r.2 b.1) = true := by decide +kernel
  obtain ⟨b, hb, hlow, hhigh⟩ := hblank
  unfold inRanges
  rw [← Array.any_toList, List.any_eq_false]
  intro r hr
  have hr' := List.all_eq_true.mp (List.all_eq_true.mp hapart r hr) b hb
  simp only [Bool.or_eq_true, Nat.blt_eq] at hr'
  simp only [Bool.and_eq_true, decide_eq_true_eq]
  omega

/-! ## Trimming -/

/-- A text of blanks. -/
def AllBlank (cs : List Char) : Prop := ∀ c ∈ cs, isBlank c = true

instance (cs : List Char) : Decidable (AllBlank cs) := List.decidableBAll (fun c => isBlank c = true) cs

/-- **A text without blanks at its ends.** -/
structure Snug (cs : List Char) : Prop where
  head : ∀ c ∈ cs.head?, isBlank c = false
  last : ∀ c ∈ cs.getLast?, isBlank c = false

variable {front cs behind : List Char}

theorem allBlank_nil : AllBlank [] := fun _ hc => absurd hc List.not_mem_nil

theorem AllBlank.append (hfront : AllBlank front) (hbehind : AllBlank behind) : AllBlank (front ++ behind) := by
  intro c hc
  exact (List.mem_append.mp hc).elim (hfront c) (hbehind c)

theorem AllBlank.reverse (h : AllBlank cs) : AllBlank cs.reverse := fun c hc => h c (List.mem_reverse.mp hc)

theorem trimStart_append (hfront : AllBlank front) (cs : List Char) (hhead : ∀ c ∈ cs.head?, isBlank c = false) :
    trimStart (front ++ cs) = cs := by
  unfold trimStart
  rw [List.dropWhile_append_of_pos hfront]
  cases cs with
  | nil => rfl
  | cons c rest => exact List.dropWhile_cons_of_neg (by simp [hhead c rfl])

theorem trimEnd_append (hlast : ∀ c ∈ cs.getLast?, isBlank c = false) (hbehind : AllBlank behind) :
    trimEnd (cs ++ behind) = cs := by
  have hstart := trimStart_append hbehind.reverse cs.reverse (by rwa [List.head?_reverse])
  unfold trimEnd
  rw [List.reverse_append, ← trimStart, hstart, List.reverse_reverse]

/-- A text that does not end in a blank stays in front of what is trimmed. -/
theorem trimEnd_append_of_last {c : Char} (hc : isBlank c = false) (front behind : List Char) :
    trimEnd (front ++ c :: behind) = front ++ c :: trimEnd behind := by
  unfold trimEnd
  rw [List.reverse_append, List.reverse_cons, List.append_assoc, List.dropWhile_append]
  split
  · next h => simp [List.dropWhile_cons_of_neg, hc, List.isEmpty_iff.mp h]
  · simp

/-- What is trimmed in front is blank, and nothing that stays there is. -/
theorem exists_trimStart (cs : List Char) :
    ∃ front, AllBlank front ∧ cs = front ++ trimStart cs ∧ ∀ c ∈ (trimStart cs).head?, isBlank c = false := by
  refine ⟨cs.takeWhile isBlank, List.all_eq_true.mp List.all_takeWhile, List.takeWhile_append_dropWhile.symm, ?_⟩
  intro c hc
  have hnot := List.head?_dropWhile_not isBlank cs
  rw [← trimStart, Option.mem_def.mp hc] at hnot
  exact hnot

/-- What is trimmed behind is blank, and nothing that stays there is. -/
theorem exists_trimEnd (cs : List Char) :
    ∃ behind, AllBlank behind ∧ cs = trimEnd cs ++ behind ∧ ∀ c ∈ (trimEnd cs).getLast?, isBlank c = false := by
  obtain ⟨front, hfront, heq, hhead⟩ := exists_trimStart cs.reverse
  refine ⟨front.reverse, hfront.reverse, ?_, ?_⟩
  · rw [trimEnd, ← trimStart, ← List.reverse_append, ← heq, List.reverse_reverse]
  · rwa [trimEnd, ← trimStart, List.getLast?_reverse]

/-- **What trimming leaves, and the blanks that it takes.** -/
theorem exists_snug (cs : List Char) :
    ∃ front behind, AllBlank front ∧ AllBlank behind ∧ Snug (trimChars cs) ∧ cs = front ++ trimChars cs ++ behind := by
  obtain ⟨front, hfront, hstart, hhead⟩ := exists_trimStart cs
  obtain ⟨behind, hbehind, hend, hlast⟩ := exists_trimEnd (trimStart cs)
  refine ⟨front, behind, hfront, hbehind, ⟨fun c hc => hhead c ?_, hlast⟩, ?_⟩
  · rw [hend, List.head?_append]
    exact Option.mem_def.mpr (by rw [show (trimEnd (trimStart cs)).head? = some c from hc]; rfl)
  · rw [List.append_assoc, trimChars, ← hend]
    exact hstart

/-- **Only the blanks at its ends are trimmed off a text.** -/
theorem trimChars_of_snug (hfront : AllBlank front) (hcs : Snug cs) (hbehind : AllBlank behind) :
    trimChars (front ++ cs ++ behind) = cs := by
  cases cs with
  | nil =>
    have hnone : trimStart (front ++ [] ++ behind) = [] := by
      have := trimStart_append (hfront.append hbehind) [] (by simp)
      simpa using this
    rw [trimChars, hnone]
    rfl
  | cons c rest =>
    rw [trimChars, List.append_assoc, trimStart_append hfront _, trimEnd_append hcs.last hbehind]
    exact hcs.head

theorem snug_singleton {c : Char} (hc : isBlank c = false) : Snug [c] := by
  constructor <;> (intro d hd; cases hd; exact hc)

/-- A text that begins and ends with texts without blanks at their ends has none at its ends. -/
theorem Snug.append (hcs : Snug cs) (hne : cs ≠ []) (middle : List Char) (hbehind : Snug behind) (hne' : behind ≠ []) :
    Snug (cs ++ middle ++ behind) := by
  constructor
  · cases cs with
    | nil => exact absurd rfl hne
    | cons c rest => exact hcs.head
  · obtain ⟨init, d, rfl⟩ := (List.eq_nil_or_concat behind).resolve_left hne'
    have hlast := hbehind.last
    rw [List.concat_eq_append, List.getLast?_concat] at hlast
    rwa [List.concat_eq_append, ← List.append_assoc, List.getLast?_concat]

/-- Blanks around a text are trimmed with its own. -/
theorem trimChars_append_blank (hfront : AllBlank front) (cs : List Char) (hbehind : AllBlank behind) :
    trimChars (front ++ cs ++ behind) = trimChars cs := by
  obtain ⟨front', behind', hfront', hbehind', hsnug, heq⟩ := exists_snug cs
  have hall : front ++ cs ++ behind = (front ++ front') ++ trimChars cs ++ (behind' ++ behind) :=
    (congrArg (fun cs => front ++ cs ++ behind) heq).trans (by simp only [List.append_assoc])
  rw [hall, trimChars_of_snug (hfront.append hfront') hsnug (hbehind'.append hbehind)]

/-- Blank texts are those of blanks alone. -/
theorem isBlankText_iff (s : String) : isBlankText s = true ↔ AllBlank s.toList := by
  have htrim : isBlankText s = true ↔ trimChars s.toList = [] := by
    rw [isBlankText, beq_iff_eq, trim, ← String.toList_inj, String.toList_ofList]
    rfl
  rw [htrim]
  constructor
  · intro hempty
    obtain ⟨front, behind, hfront, hbehind, -, heq⟩ := exists_snug s.toList
    rw [hempty, List.append_nil] at heq
    rw [heq]
    exact hfront.append hbehind
  · intro hall
    have hsnug : Snug [] := by constructor <;> (intro c hc; cases hc)
    have hnone := trimChars_of_snug hall hsnug allBlank_nil
    rwa [List.append_nil, List.append_nil] at hnone

end Databind.Text
