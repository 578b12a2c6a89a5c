import Databind.Proofs.Chaining

/-!
# `Proofs.Pasting` — lists of alternatives in texts that are pasted together

The alternatives of two texts that are pasted together are those of the one and those of the other, but for the two that
meet at the seam. Brackets that are open at the seam may keep commas behind it from separating, but never where the text
behind the seam is a list by itself and is still read.

## Main definitions

* `Selector.depthBehind` — the brackets that are open behind a text.
* `Selector.readList` — the alternatives that a text lists.
-/

namespace Databind

namespace Selector

/-! ## Lists of alternatives -/

/-- The brackets that are open behind a text, if some are open before it. -/
def depthBehind (depth : Nat) (cs : List Char) : Nat :=
  cs.foldl (fun depth c => if c = '(' ∨ c = '[' then depth + 1 else if c = ')' ∨ c = ']' then depth - 1 else depth) depth

/-- The alternatives that a text lists. -/
def readList (cs : List Char) : Except Fault (List Complex) := readAlternatives (splitAlternatives 0 cs)

theorem splitAlternatives_ne_nil (depth : Nat) (cs : List Char) : splitAlternatives depth cs ≠ [] := by
  cases cs with
  | nil => simp [splitAlternatives]
  | cons c rest =>
    unfold splitAlternatives
    split
    · simp
    · simp only
      split <;> simp

/-- A text of one piece goes on with the first piece of what stands behind it, and a character that separates nothing is
put in front of the first piece. -/
theorem splitAlternatives_cons {depth : Nat} {c : Char} {rest piece : List Char} {pieces : List (List Char)}
    (hc : ¬(c = ',' ∧ depth = 0)) (h : splitAlternatives (depthBehind depth [c]) rest = piece :: pieces) :
    splitAlternatives depth (c :: rest) = (c :: piece) :: pieces := by
  simp only [depthBehind, List.foldl_cons, List.foldl_nil] at h
  rw [splitAlternatives, if_neg hc]
  simp only [h]

theorem splitAlternatives_comma (rest : List Char) :
    splitAlternatives 0 (',' :: rest) = [] :: splitAlternatives 0 rest := by
  rw [splitAlternatives, if_pos ⟨rfl, rfl⟩]

/-- **The pieces of two texts that are pasted together**: the last piece of the one goes on with the first of the other. -/
theorem splitAlternatives_append {depth : Nat} {cs behind : List Char} (before : List (List Char))
    {after : List (List Char)} {last first : List Char} (hcs : splitAlternatives depth cs = before ++ [last])
    (hbehind : splitAlternatives (depthBehind depth cs) behind = first :: after) :
    splitAlternatives depth (cs ++ behind) = before ++ (last ++ first) :: after := by
  induction cs generalizing depth before last with
  | nil =>
    have hone : before = [] ∧ last = [] := by
      have hlist : [[]] = before ++ [last] := hcs
      cases before with
      | nil => exact ⟨rfl, by simpa using hlist.symm⟩
      | cons piece before => simp at hlist
    obtain ⟨rfl, rfl⟩ := hone
    exact hbehind
  | cons c rest ih =>
    by_cases hc : c = ',' ∧ depth = 0
    · obtain ⟨rfl, rfl⟩ := hc
      rw [splitAlternatives_comma] at hcs
      rw [List.cons_append, splitAlternatives_comma]
      cases before with
      | nil => exact absurd (List.cons.inj hcs).2 (splitAlternatives_ne_nil 0 rest)
      | cons piece before =>
        obtain ⟨rfl, hrest⟩ := List.cons.inj hcs
        exact congrArg ([] :: ·) (ih before hrest hbehind)
    · obtain ⟨piece, pieces, hrest⟩ := List.exists_cons_of_ne_nil (splitAlternatives_ne_nil (depthBehind depth [c]) rest)
      rw [splitAlternatives_cons hc hrest] at hcs
      cases before with
      | nil =>
        obtain ⟨rfl, rfl⟩ := List.cons.inj hcs
        exact splitAlternatives_cons hc (ih [] hrest hbehind)
      | cons piece' before =>
        obtain ⟨rfl, rfl⟩ := List.cons.inj hcs
        exact splitAlternatives_cons hc (ih (piece :: before) hrest hbehind)

/-- A text without commas is one piece. -/
theorem splitAlternatives_of_not_mem {cs : List Char} (h : ',' ∉ cs) (depth : Nat) : splitAlternatives depth cs = [cs] := by
  induction cs generalizing depth with
  | nil => rfl
  | cons c rest ih =>
    have hc : ¬(c = ',' ∧ depth = 0) := fun hc => h (hc.1 ▸ List.mem_cons_self)
    exact splitAlternatives_cons hc (ih (fun hmem => h (List.mem_cons_of_mem _ hmem)) _)

/-- A character keeps the order of the brackets that are open. -/
theorem depthBehind_le_depthBehind {depth deeper : Nat} (hle : depth ≤ deeper) (c : Char) :
    depthBehind depth [c] ≤ depthBehind deeper [c] := by
  simp only [depthBehind, List.foldl_cons, List.foldl_nil]
  split
  · omega
  · split <;> omega

/-- **More open brackets separate less**: the pieces are the same, or the first ones that differ differ by a comma. -/
theorem splitAlternatives_deeper {depth deeper : Nat} (hle : depth ≤ deeper) (cs : List Char) :
    splitAlternatives deeper cs = splitAlternatives depth cs ∨
      ∃ before piece behind after after', splitAlternatives depth cs = before ++ piece :: after ∧
        splitAlternatives deeper cs = before ++ (piece ++ ',' :: behind) :: after' := by
  induction cs generalizing depth deeper with
  | nil => exact .inl rfl
  | cons c rest ih =>
    obtain ⟨piece, pieces, hrest⟩ := List.exists_cons_of_ne_nil (splitAlternatives_ne_nil (depthBehind depth [c]) rest)
    obtain ⟨piece', pieces', hrest'⟩ :=
      List.exists_cons_of_ne_nil (splitAlternatives_ne_nil (depthBehind deeper [c]) rest)
    by_cases hc : c = ',' ∧ depth = 0
    · obtain ⟨rfl, rfl⟩ := hc
      rw [splitAlternatives_comma]
      cases deeper with
      | zero =>
        rw [splitAlternatives_comma]
        exact .inl rfl
      | succ deeper =>
        rw [splitAlternatives_cons (by simp) hrest']
        exact .inr ⟨[], [], piece', _, pieces', rfl, rfl⟩
    · -- the character separates nothing at either depth, and the order of the depths is kept behind it
      have hc' : ¬(c = ',' ∧ deeper = 0) := fun h => hc ⟨h.1, by omega⟩
      rw [splitAlternatives_cons hc hrest, splitAlternatives_cons hc' hrest']
      obtain hsame | ⟨before, piece₁, behind, after, after', hless, hmore⟩ := ih (depthBehind_le_depthBehind hle c)
      · rw [hrest, hrest'] at hsame
        obtain ⟨rfl, rfl⟩ := List.cons.inj hsame
        exact .inl rfl
      · rw [hrest] at hless
        rw [hrest'] at hmore
        cases before with
        | nil =>
          obtain ⟨rfl, rfl⟩ := List.cons.inj hless
          obtain ⟨rfl, rfl⟩ := List.cons.inj hmore
          exact .inr ⟨[], c :: piece, behind, _, _, rfl, rfl⟩
        | cons piece₀ before =>
          obtain ⟨rfl, rfl⟩ := List.cons.inj hless
          obtain ⟨rfl, rfl⟩ := List.cons.inj hmore
          exact .inr ⟨(c :: _) :: before, piece₁, behind, after, after', rfl, rfl⟩

/-! ## Reading a list -/

theorem readAlternatives_cons_eq_ok {piece : List Char} {pieces : List (List Char)} {complexes : List Complex} :
    readAlternatives (piece :: pieces) = .ok complexes ↔ ∃ complex rest, readAlternative piece = .ok complex ∧
      readAlternatives pieces = .ok rest ∧ complexes = complex :: rest := by
  simp only [readAlternatives]
  cases readAlternative piece with
  | error fault => simp [bind, Except.bind]
  | ok complex =>
    cases readAlternatives pieces with
    | error fault => simp [bind, Except.bind]
    | ok rest => simp [bind, Except.bind, eq_comm]

/-- The alternatives of pieces are those of some of them and those of the others. -/
theorem readAlternatives_append_eq_ok {before after : List (List Char)} {complexes : List Complex} :
    readAlternatives (before ++ after) = .ok complexes ↔ ∃ front rest, readAlternatives before = .ok front ∧
      readAlternatives after = .ok rest ∧ complexes = front ++ rest := by
  induction before generalizing complexes with
  | nil => simp [readAlternatives]
  | cons piece before ih =>
    rw [List.cons_append, readAlternatives_cons_eq_ok]
    constructor
    · rintro ⟨complex, rest, hcomplex, hrest, rfl⟩
      obtain ⟨front, behind, hfront, hbehind, rfl⟩ := ih.mp hrest
      exact ⟨complex :: front, behind, readAlternatives_cons_eq_ok.mpr ⟨_, _, hcomplex, hfront, rfl⟩, hbehind, rfl⟩
    · rintro ⟨front, behind, hfront, hbehind, rfl⟩
      obtain ⟨complex, front', hcomplex, hfront', rfl⟩ := readAlternatives_cons_eq_ok.mp hfront
      exact ⟨complex, front' ++ behind, hcomplex, ih.mpr ⟨_, _, hfront', hbehind, rfl⟩, rfl⟩

/-- Blanks at the ends of a piece do not matter. -/
theorem readAlternative_append_blank {front behind : List Char} (hfront : Text.AllBlank front) (piece : List Char)
    (hbehind : Text.AllBlank behind) : readAlternative (front ++ piece ++ behind) = readAlternative piece := by
  unfold readAlternative
  rw [Text.trimChars_append_blank hfront _ hbehind]

/-- Only brackets open and close. -/
theorem depthBehind_of_plain {cs : List Char} (h : ∀ c ∈ cs, c ≠ '(' ∧ c ≠ '[' ∧ c ≠ ')' ∧ c ≠ ']') (depth : Nat) :
    depthBehind depth cs = depth := by
  induction cs with
  | nil => rfl
  | cons c rest ih =>
    have hrest := ih fun d hd => h d (List.mem_cons_of_mem _ hd)
    simpa [depthBehind, h c List.mem_cons_self] using hrest

theorem depthBehind_of_blank {cs : List Char} (h : Text.AllBlank cs) (depth : Nat) : depthBehind depth cs = depth := by
  refine depthBehind_of_plain (fun c hc => ?_) depth
  have hblank := h c hc
  refine ⟨?_, ?_, ?_, ?_⟩ <;> (rintro rfl; revert hblank; decide)

theorem not_mem_of_blank {cs : List Char} (h : Text.AllBlank cs) : ',' ∉ cs := fun hmem => absurd (h _ hmem) (by decide)

/-- **Blanks at the ends of a text do not matter** to the alternatives that it lists. -/
theorem readList_trimChars {cs : List Char} {complexes : List Complex} :
    readList (Text.trimChars cs) = .ok complexes ↔ readList cs = .ok complexes := by
  obtain ⟨front, behind, hfront, hbehind, -, heq⟩ := Text.exists_snug cs
  generalize Text.trimChars cs = core at heq
  subst heq
  have hstart : readList (front ++ core) = .ok complexes ↔ readList core = .ok complexes := by
    obtain ⟨piece, pieces, hcore⟩ := List.exists_cons_of_ne_nil (splitAlternatives_ne_nil 0 core)
    have hsplit := splitAlternatives_append [] (splitAlternatives_of_not_mem (not_mem_of_blank hfront) 0)
      ((depthBehind_of_blank hfront 0).symm ▸ hcore)
    have hpiece : readAlternative (front ++ piece) = readAlternative piece := by
      have := readAlternative_append_blank hfront piece Text.allBlank_nil
      rwa [List.append_nil] at this
    unfold readList
    rw [hsplit, hcore, List.nil_append, readAlternatives_cons_eq_ok, readAlternatives_cons_eq_ok, hpiece]
  have hend : readList (front ++ core ++ behind) = .ok complexes ↔ readList (front ++ core) = .ok complexes := by
    obtain hnil | ⟨before, last, hcore⟩ := List.eq_nil_or_concat (splitAlternatives 0 (front ++ core))
    · exact absurd hnil (splitAlternatives_ne_nil _ _)
    rw [List.concat_eq_append] at hcore
    have hsplit := splitAlternatives_append before hcore (splitAlternatives_of_not_mem (not_mem_of_blank hbehind) _)
    have hlast : readAlternative (last ++ behind) = readAlternative last :=
      readAlternative_append_blank Text.allBlank_nil last hbehind
    unfold readList
    simp only [hsplit, hcore, readAlternatives_append_eq_ok, readAlternatives_cons_eq_ok, hlast]
  rw [hend, hstart]

/-! ## One alternative below a chain -/

/-- An alternative has a chain between its blanks. -/
theorem exists_core {piece : List Char} {complex : Complex} (h : readAlternative piece = .ok complex) :
    ∃ front core blanks, Text.AllBlank front ∧ Text.AllBlank blanks ∧ Text.Snug core ∧ core ≠ [] ∧
      piece = front ++ core ++ blanks ∧ readComplex none none core = .ok complex := by
  obtain ⟨front, blanks, hfront, hblanks, hsnug, heq⟩ := Text.exists_snug piece
  refine ⟨front, Text.trimChars piece, blanks, hfront, hblanks, hsnug, fun hnil => ?_, heq, h⟩
  obtain ⟨fault, hfault⟩ := readComplex_none_nil none
  rw [readAlternative, hnil, hfault] at h
  cases h

section Piece

variable {piece : List Char} {complex : Complex}

/-- An alternative behind a blank is read below the chain in front of it. -/
theorem readComplex_piece (h : readAlternative piece = .ok complex) :
    ∃ links, links ≠ [] ∧
      ∀ left, readComplex (some left) none (Text.trimEnd (' ' :: piece)) = .ok (left.extend links) := by
  obtain ⟨front, core, blanks, hfront, hblanks, hsnug, hne, rfl, hcore⟩ := exists_core h
  obtain ⟨links, hlinks, hall⟩ := readComplex_below hsnug.head hcore
  refine ⟨links, hlinks, fun left => ?_⟩
  have htrim : Text.trimEnd (' ' :: (front ++ core ++ blanks)) = ' ' :: (front ++ core) := by
    have hlast : ∀ c ∈ (' ' :: (front ++ core)).getLast?, Text.isBlank c = false := by
      obtain ⟨init, d, hconcat⟩ := (List.eq_nil_or_concat core).resolve_left hne
      rw [List.concat_eq_append] at hconcat
      subst hconcat
      have hlast := hsnug.last
      rw [List.getLast?_concat] at hlast
      rwa [← List.append_assoc, ← List.cons_append, List.getLast?_concat]
    exact Text.trimEnd_append hlast hblanks
  rw [htrim, readComplex_blank (by decide)]
  exact (readComplex_blanks hfront left core).trans (hall left)

/-- It is not read if a comma comes behind it. -/
theorem readComplex_piece_comma (h : readAlternative piece = .ok complex) (left : Complex) (behind : List Char) :
    readComplex (some left) none (Text.trimEnd (' ' :: (piece ++ ',' :: behind))) = .error .unexpectedCharacter := by
  obtain ⟨front, core, blanks, hfront, hblanks, hsnug, hne, rfl, hcore⟩ := exists_core h
  obtain ⟨links, -, hall⟩ := readComplex_below hsnug.head hcore
  rw [← List.cons_append, Text.trimEnd_append_of_last (by decide), List.cons_append, readComplex_blank (by decide)]
  simp only [List.append_assoc]
  exact (readComplex_blanks hfront left _).trans (readComplex_comma hne (hall left) hblanks _)

theorem readAlternative_comma (h : readAlternative piece = .ok complex) (behind : List Char) :
    readAlternative (piece ++ ',' :: behind) = .error .unexpectedCharacter := by
  obtain ⟨front, core, blanks, hfront, hblanks, hsnug, hne, rfl, hcore⟩ := exists_core h
  have hhead : ∀ c ∈ (core ++ (blanks ++ ',' :: behind)).head?, Text.isBlank c = false := by
    cases core with
    | nil => exact absurd rfl hne
    | cons d rest => exact hsnug.head
  rw [readAlternative, Text.trimChars, List.append_assoc, List.append_assoc, Text.trimStart_append hfront _ hhead,
    ← List.append_assoc, Text.trimEnd_append_of_last (by decide), List.append_assoc]
  exact readComplex_comma hne hcore hblanks _

end Piece

end Selector

end Databind
