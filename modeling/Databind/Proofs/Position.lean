import Databind.Proofs.Listing
import Databind.Proofs.Spelling

/-!
# `Proofs.Position` — an alternative that is narrowed to a position

A position behind a chain belongs to its last compound, or makes a compound of its own where a blank or nothing stands in
front of it. What comes behind is read below that chain. So a list that is narrowed to a position changes in two of its
alternatives only, the ones that meet at the position.

## Main definitions

* `Selector.positionText` — a position as it is written.
* `Selector.Lists` — the alternatives that a text lists, none if it is empty.
-/

namespace Databind

namespace Text

theorem isDigit_of_mem_digits {n : Nat} {d : Char} (hd : d ∈ Number.digits n) : d.isDigit = true :=
  Nat.isDigit_of_mem_toDigits (by decide) (by decide) hd

/-- **The digits of a number are read as that number**, if it is below the bound. -/
theorem readSize?_digits (n : Nat) : readSize? (Number.digits n) = if n < sizeBound then some n else none := by
  have hall : (Number.digits n).all Char.isDigit = true := List.all_eq_true.mpr fun d hd => isDigit_of_mem_digits hd
  have hplus : (Number.digits n).head? ≠ some '+' := fun h =>
    absurd (isDigit_of_mem_digits (List.mem_of_mem_head? h)) (by decide)
  have hne : Number.digits n ≠ [] := Nat.toDigits_ne_nil
  unfold readSize?
  simp only [if_neg hplus, hne, hall, Decimal.digitsValue_digits, ne_eq, not_false_eq_true, true_and]

theorem trimChars_digits (n : Nat) : trimChars (Number.digits n) = Number.digits n := by
  have hblank : ∀ d ∈ Number.digits n, isBlank d = false := fun d hd =>
    Expression.isBlank_of_isDigit (isDigit_of_mem_digits hd)
  have hsnug : Snug (Number.digits n) :=
    ⟨fun c hc => hblank c (List.mem_of_mem_head? hc), fun c hc => hblank c (List.mem_of_mem_getLast? hc)⟩
  have := trimChars_of_snug allBlank_nil hsnug allBlank_nil
  rwa [List.nil_append, List.append_nil] at this

end Text

namespace Selector

/-- The text of a position. -/
def positionText (n : Nat) : List Char := ':' :: ("nth-of-type".toList ++ '(' :: (Number.digits n ++ [')']))

/-- The digits of a number are read as a position if it is from one and below the bound. -/
theorem readPosition?_digits (n : Nat) :
    readPosition? (Number.digits n) = if 0 < n ∧ n < Text.sizeBound then some n else none := by
  unfold readPosition?
  rw [Text.trimChars_digits, Text.readSize?_digits]
  by_cases hbound : n < Text.sizeBound <;> cases n <;> simp [hbound]

/-- A position is read if it is from one and below the bound. -/
theorem readQualifiers_position (compound : Compound) (n : Nat) (behind : List Char) :
    readQualifiers compound (positionText n ++ behind) =
      if 0 < n ∧ n < Text.sizeBound then readQualifiers (compound.add (.position n)) behind else .error .badPosition := by
  have hread : readIdent ("nth-of-type".toList ++ '(' :: (Number.digits n ++ ')' :: behind)) =
      ("nth-of-type".toList, '(' :: (Number.digits n ++ ')' :: behind)) := by
    have hparen : Breaks ('(' :: (Number.digits n ++ ')' :: behind)) := by
      intro c hc
      cases hc
      decide +kernel
    have hname : readIdent "nth-of-type".toList = ("nth-of-type".toList, []) := by decide +kernel
    rw [readIdent_append hparen, hname]
    rfl
  have hsplit : Text.splitAt? ')' (Number.digits n ++ ')' :: behind) = some (Number.digits n, behind) :=
    Text.splitAt?_of_not_mem (fun hmem => absurd (Text.isDigit_of_mem_digits hmem) (by decide)) behind
  have hqualifier : readQualifier ':' ("nth-of-type".toList ++ '(' :: (Number.digits n ++ ')' :: behind)) =
      if 0 < n ∧ n < Text.sizeBound then .ok (.position n, behind) else .error .badPosition := by
    unfold readQualifier readPseudoClass
    rw [if_neg (by decide), if_neg (by decide), if_neg (by decide), hread]
    simp only [ne_eq, not_true_eq_false, if_false, hsplit, readPosition?_digits]
    by_cases hn : 0 < n ∧ n < Text.sizeBound
    · simp only [if_pos hn]
    · simp only [if_neg hn]
  have htext : positionText n ++ behind = ':' :: ("nth-of-type".toList ++ '(' :: (Number.digits n ++ ')' :: behind)) := by
    simp [positionText]
  rw [htext, readQualifiers, if_pos (by decide)]
  split
  · next fault hfault =>
    rw [hqualifier] at hfault
    split at hfault
    · cases hfault
    · next hnot => cases hfault; rw [if_neg hnot]
  · next q behind' hok =>
    rw [hqualifier] at hok
    split at hok
    · next hn => cases hok; rw [if_pos hn]
    · cases hok

/-- A compound may be a position and nothing else. -/
theorem readComplex_position (n : Nat) {chain : Option Complex} {pending : Option Combinator} {head : Complex}
    (hjoined : joined chain pending { position := some n } = .ok head) {tail : List Char}
    (hstop : ∀ c ∈ tail.head?, isQualifierStart c = false) :
    readComplex chain pending (positionText n ++ tail) =
      if 0 < n ∧ n < Text.sizeBound then readComplex (some head) none tail else .error .badPosition := by
  have hident : isIdentChar ':' = false := by decide +kernel
  have hcompound : ∀ rest, readCompound ':' rest = readQualifiers {} (':' :: rest) := by
    intro rest
    unfold readCompound
    rw [if_neg (by decide), if_neg (by simp [hident]), if_pos (by decide), readQualifiers, if_pos (by decide)]
    cases readQualifier ':' rest <;> rfl
  have hread := readQualifiers_position {} n tail
  rw [positionText, List.cons_append] at hread ⊢
  rw [readComplex_compound (by decide) (by decide), hcompound, hread]
  split
  · rw [readQualifiers_of_stop _ hstop]
    have hadd : ({} : Compound).add (.position n) = { position := some n } := rfl
    simp only [Except.bind, hadd, hjoined]
  · rfl

/-- What stands behind a position goes on with no qualifier. -/
theorem stop_trimEnd (behind : List Char) : ∀ c ∈ (Text.trimEnd (' ' :: behind)).head?, isQualifierStart c = false := by
  obtain ⟨blanks, -, heq, -⟩ := Text.exists_trimEnd (' ' :: behind)
  cases htrimmed : Text.trimEnd (' ' :: behind) with
  | nil => simp
  | cons c rest =>
    rw [htrimmed] at heq
    cases heq
    simp [isQualifierStart]

/-- Trimming a text with a position in it. -/
theorem trimChars_position {front : List Char} (hfront : Text.AllBlank front) (core : List Char)
    (hhead : ∀ c ∈ core.head?, Text.isBlank c = false) (n : Nat) (behind : List Char) :
    Text.trimChars (front ++ (core ++ (positionText n ++ ' ' :: behind))) =
      core ++ (positionText n ++ Text.trimEnd (' ' :: behind)) := by
  have hhead' : ∀ c ∈ (core ++ (positionText n ++ ' ' :: behind)).head?, Text.isBlank c = false := by
    cases core with
    | nil => intro c hc; cases hc; decide
    | cons d rest => exact hhead
  have hend : ∀ behind, core ++ (positionText n ++ behind) =
      (core ++ (':' :: ("nth-of-type".toList ++ '(' :: Number.digits n))) ++ ')' :: behind := by
    intro behind
    simp [positionText]
  rw [Text.trimChars, Text.trimStart_append hfront _ hhead', hend, hend, Text.trimEnd_append_of_last (by decide)]

/-- **An alternative that ends in a position, and what is read behind it.** The position belongs to the last compound in
front of it, or makes a compound of its own. -/
theorem readAlternative_position {piece : List Char}
    (h : piece = [] ∨ ∃ complex, readAlternative piece = .ok complex) (n : Nat) :
    ∃ head : Complex, head.last.position = some n ∧ ∀ behind,
      readAlternative (piece ++ (positionText n ++ ' ' :: behind)) =
        if 0 < n ∧ n < Text.sizeBound then readComplex (some head) none (Text.trimEnd (' ' :: behind))
        else .error .badPosition := by
  obtain rfl | ⟨complex, hpiece⟩ := h
  · refine ⟨.compound { position := some n }, rfl, fun behind => ?_⟩
    have htrim := trimChars_position Text.allBlank_nil [] (by simp) n behind
    rw [List.nil_append] at htrim
    rw [readAlternative, htrim]
    exact readComplex_position n rfl (stop_trimEnd behind)
  · obtain ⟨front, core, blanks, hfront, hblanks, hsnug, hne, rfl, hcore⟩ := exists_core hpiece
    -- the blanks in front of the alternative go, and those behind it stand in front of the position
    have htext : ∀ behind, readAlternative (front ++ core ++ blanks ++ (positionText n ++ ' ' :: behind)) =
        readComplex none none (core ++ (blanks ++ (positionText n ++ Text.trimEnd (' ' :: behind)))) := by
      intro behind
      have hhead : ∀ c ∈ (core ++ blanks).head?, Text.isBlank c = false := by
        cases core with
        | nil => exact absurd rfl hne
        | cons d rest => exact hsnug.head
      have htrim := trimChars_position hfront _ hhead n behind
      rw [readAlternative]
      simp only [List.append_assoc] at htrim ⊢
      rw [htrim]
    have hbreaks : ∀ tail, Breaks (positionText n ++ tail) := by
      intro tail c hc
      cases hc
      decide +kernel
    simp only [htext]
    cases blanks with
    | nil =>
      -- no blank in between: the position qualifies the compound that ends the alternative, if one does
      obtain hon | hon := readComplex_append hne hcore
      · refine ⟨complex.withLast (complex.last.add (.position n)), by simp [Compound.add], fun behind => ?_⟩
        rw [List.nil_append, hon _ (hbreaks _), readQualifiers_position]
        split
        · rw [readQualifiers_of_stop _ (stop_trimEnd behind)]
          rfl
        · rfl
      · refine ⟨.join complex .descendant { position := some n }, rfl, fun behind => ?_⟩
        rw [List.nil_append, hon _ (hbreaks _)]
        exact readComplex_position n rfl (stop_trimEnd behind)
    | cons b blanks =>
      -- behind a blank the position is a compound of its own
      refine ⟨.join complex .descendant { position := some n }, rfl, fun behind => ?_⟩
      rw [readComplex_append_blanks hne hcore hblanks]
      exact readComplex_position n rfl (stop_trimEnd behind)

/-- A position opens and closes its own brackets, and separates nothing. -/
theorem alike_positionText (n : Nat) : Alike (positionText n) [] := by
  have hname : Plain (':' :: "nth-of-type".toList) := by decide
  have hdigits : Plain (Number.digits n) :=
    @plain_of_all _ Char.isDigit (by decide) fun _ => Text.isDigit_of_mem_digits
  exact (Alike.of_plain hname).append (Alike.parenthesized hdigits)

/-- **Open brackets in front do not change the pieces** of a list whose alternatives are read in front of them and behind
them. -/
theorem splitAlternatives_of_read {inner first : List Char} {after : List (List Char)} {complexes rest : List Complex}
    {left complex : Complex} {depth : Nat} (hinner : readList inner = .ok complexes)
    (hsplit : splitAlternatives depth inner = first :: after)
    (hfirst : readComplex (some left) none (Text.trimEnd (' ' :: first)) = .ok complex)
    (hafter : readAlternatives after = .ok rest) : splitAlternatives 0 inner = first :: after := by
  obtain hsame | ⟨before, piece, behind, others, others', hshallow, hdeep⟩ :=
    splitAlternatives_deeper (Nat.zero_le depth) inner
  · rw [← hsame, hsplit]
  rw [readList, hshallow] at hinner
  obtain ⟨-, rest', -, hrest, -⟩ := readAlternatives_append_eq_ok.mp hinner
  obtain ⟨one, -, hpiece, -⟩ := readAlternatives_cons_eq_ok.mp hrest
  rw [hsplit] at hdeep
  -- a comma that the brackets keep is part of a piece, and no alternative is read with a comma in it
  cases before with
  | nil =>
    obtain ⟨rfl, rfl⟩ := List.cons.inj hdeep
    rw [readComplex_piece_comma hpiece] at hfirst
    cases hfirst
  | cons piece' before =>
    obtain ⟨rfl, rfl⟩ := List.cons.inj hdeep
    obtain ⟨-, rest'', -, hrest', -⟩ := readAlternatives_append_eq_ok.mp hafter
    obtain ⟨two, -, hpiece', -⟩ := readAlternatives_cons_eq_ok.mp hrest'
    rw [readAlternative_comma hpiece] at hpiece'
    cases hpiece'

/-- The alternatives that a text lists, if it is not empty. -/
def Lists (cs : List Char) (complexes : List Complex) : Prop := cs = [] ∧ complexes = [] ∨ readList cs = .ok complexes

/-- The pieces of a parent: the last may be empty, and the ones in front of it are read. -/
theorem exists_pieces {parent : List Char} {ps : List Complex} (h : Lists parent ps) :
    ∃ before last, splitAlternatives 0 parent = before ++ [last] ∧ readAlternatives before = .ok ps.dropLast ∧
      (last = [] ∨ ∃ complex, readAlternative last = .ok complex) := by
  obtain ⟨rfl, rfl⟩ | hread := h
  · exact ⟨[], [], rfl, rfl, .inl rfl⟩
  obtain hnil | ⟨before, last, hpieces⟩ := List.eq_nil_or_concat (splitAlternatives 0 parent)
  · exact absurd hnil (splitAlternatives_ne_nil _ _)
  rw [List.concat_eq_append] at hpieces
  rw [readList, hpieces] at hread
  obtain ⟨front, rest, hfront, hrest, rfl⟩ := readAlternatives_append_eq_ok.mp hread
  obtain ⟨complex, rest', hcomplex, hrest', rfl⟩ := readAlternatives_cons_eq_ok.mp hrest
  cases hrest'
  exact ⟨before, last, hpieces, by rw [List.dropLast_concat]; exact hfront, .inr ⟨complex, hcomplex⟩⟩

/-- The pieces of a parent that is narrowed to a position. -/
theorem splitAlternatives_position {parent inner last first : List Char} {before after : List (List Char)}
    (hparent : splitAlternatives 0 parent = before ++ [last])
    (hinner : splitAlternatives (depthBehind 0 parent) inner = first :: after) (n : Nat) :
    splitAlternatives 0 (parent ++ (positionText n ++ ' ' :: inner)) =
      before ++ (last ++ (positionText n ++ ' ' :: first)) :: after := by
  have hblank : Plain [' '] := by decide
  have hposition : openBehind? (depthBehind 0 parent) (positionText n ++ [' ']) = some (depthBehind 0 parent) :=
    (alike_positionText n).append (Alike.of_plain hblank) _
  obtain ⟨hone, hdepth⟩ := splitAlternatives_of_openBehind hposition
  rw [← hdepth] at hinner
  have hseam := splitAlternatives_append [] hone hinner
  simp only [List.append_assoc, List.nil_append, List.singleton_append] at hseam
  exact splitAlternatives_append before hparent hseam

/-- **The alternatives of a parent that is narrowed to a position.** Those of the parent but the last and those of the
inner selector but the first stand as they are. The last of the parent takes the position, and the first of the inner
selector goes on below it. -/
theorem alternatives_of_narrowed {parent inner : List Char} {ps is : List Complex} (hparent : Lists parent ps)
    (hinner : Lists inner is) {n : Nat} {complexes : List Complex}
    (h : readList (parent ++ (positionText n ++ ' ' :: inner)) = .ok complexes) :
    ∃ head links, head.last.position = some n ∧ (links = [] ↔ inner = []) ∧
      complexes = ps.dropLast ++ head.extend links :: is.tail ∧
      readList (parent ++ (positionText n ++ [' '])) = .ok (ps.dropLast ++ [head]) := by
  obtain ⟨before, last, hbefore, hfront, hlast⟩ := exists_pieces hparent
  obtain ⟨head, hposition, hhead⟩ := readAlternative_position hlast n
  obtain ⟨first, after, hsplit⟩ :=
    List.exists_cons_of_ne_nil (splitAlternatives_ne_nil (depthBehind 0 parent) inner)
  rw [readList, splitAlternatives_position hbefore hsplit] at h
  obtain ⟨front, rest, hfront', hrest, rfl⟩ := readAlternatives_append_eq_ok.mp h
  obtain ⟨complex, behind, hcomplex, hbehind, rfl⟩ := readAlternatives_cons_eq_ok.mp hrest
  cases hfront.symm.trans hfront'
  rw [hhead] at hcomplex
  by_cases hn : 0 < n ∧ n < Text.sizeBound
  swap
  · rw [if_neg hn] at hcomplex
    cases hcomplex
  rw [if_pos hn] at hcomplex
  have halone : readList (parent ++ (positionText n ++ [' '])) = .ok (ps.dropLast ++ [head]) := by
    have hone : readAlternative (last ++ (positionText n ++ [' '])) = .ok head := by
      rw [hhead, if_pos hn]
      exact readComplex_nil head (by simp)
    have hnone : splitAlternatives (depthBehind 0 parent) [] = [[]] := rfl
    rw [readList, splitAlternatives_position hbefore hnone]
    exact readAlternatives_append_eq_ok.mpr
      ⟨_, _, hfront, readAlternatives_cons_eq_ok.mpr ⟨_, _, hone, rfl, rfl⟩, rfl⟩
  obtain ⟨rfl, rfl⟩ | hinner := hinner
  · obtain ⟨rfl, rfl⟩ := List.cons.inj hsplit
    cases hbehind
    have hcomplex' : readComplex (some head) none (Text.trimEnd [' ']) = .ok head := readComplex_nil head (by simp)
    cases hcomplex'.symm.trans hcomplex
    exact ⟨head, [], hposition, by simp, rfl, halone⟩
  · -- so the inner pieces at the seam are the pieces of the inner selector by itself
    rw [readList, splitAlternatives_of_read hinner hsplit hcomplex hbehind] at hinner
    obtain ⟨one, rest', hone, hrest', rfl⟩ := readAlternatives_cons_eq_ok.mp hinner
    cases hbehind.symm.trans hrest'
    obtain ⟨links, hlinks, hall⟩ := readComplex_piece hone
    cases (hall head).symm.trans hcomplex
    have hne : inner ≠ [] := by
      rintro rfl
      obtain ⟨rfl, -⟩ := List.cons.inj hsplit
      obtain ⟨_, core, _, -, -, -, hcore, heq, -⟩ := exists_core hone
      simp [hcore] at heq
    exact ⟨head, links, hposition, by simp [hlinks, hne], rfl, halone⟩

end Selector

end Databind
