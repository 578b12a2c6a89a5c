import Databind.Proofs.Wording

/-!
# `Proofs.Layout` — chains and the blanks in them

The grammar of chains, which fixes where blanks may stand: around `>`, and in place of it for a descendant. With blanks at
its ends a wording of a chain makes a piece of a list, and the reader takes exactly these pieces
(`readAlternative_eq_ok_iff`).

## Main definitions

* `Selector.Combinator.Gap` — what may stand between two compounds.
* `Selector.Complex.Wording` — the grammar of chains.
* `Selector.Complex.Piece` — a wording of a chain with blanks at its ends.
* `Selector.Begun` — how far a chain has been read.
-/

namespace Databind.Selector

/-- **What may stand between two compounds.** -/
inductive Combinator.Gap : Combinator → List Char → Prop
  | descendant {blanks : List Char} (hblanks : Text.AllBlank blanks) (hne : blanks ≠ []) : Gap .descendant blanks
  | child {front behind : List Char} (hfront : Text.AllBlank front) (hbehind : Text.AllBlank behind) :
    Gap .child (front ++ '>' :: behind)

/-- **The grammar of chains.** -/
inductive Complex.Wording : Complex → List Char → Prop
  | compound {c : Compound} {word : List Char} (hc : c.Wording word) : Wording (.compound c) word
  | join {left : Complex} {combinator : Combinator} {right : Compound} {front gap word : List Char}
    (hleft : Wording left front) (hgap : combinator.Gap gap) (hright : right.Wording word) :
    Wording (.join left combinator right) (front ++ gap ++ word)

/-- A wording of a chain with blanks at its ends. -/
inductive Complex.Piece (complex : Complex) : List Char → Prop
  | mk {front word behind : List Char} (hfront : Text.AllBlank front) (hword : complex.Wording word)
    (hbehind : Text.AllBlank behind) : Piece complex (front ++ word ++ behind)

variable {complex : Complex} {combinator : Combinator} {compound : Compound} {gap tail word : List Char}

/-! ## Pieces are read -/

/-- A text that a compound does not go on into. -/
def Ends (tail : List Char) : Prop := ∀ c ∈ tail.head?, isIdentChar c = false ∧ isQualifierStart c = false

theorem ends_nil : Ends [] := fun _ hc => nomatch hc

theorem Ends.breaks (h : Ends tail) : Breaks tail := fun c hc => (h c hc).1

theorem Combinator.Gap.ends (h : combinator.Gap gap) (tail : List Char) : Ends (gap ++ tail) := by
  have hblank : ∀ {c : Char} {blanks : List Char}, Text.AllBlank (c :: blanks) →
      isIdentChar c = false ∧ isQualifierStart c = false := by
    intro c blanks hblanks
    have hc := hblanks c List.mem_cons_self
    exact ⟨isIdentChar_of_isBlank hc, isQualifierStart_of_isBlank hc⟩
  intro c hc
  cases h with
  | descendant hblanks hne =>
    cases gap with
    | nil => exact absurd rfl hne
    | cons b blanks => cases hc; exact hblank hblanks
  | @child front behind hfront hbehind =>
    cases front with
    | nil => cases hc; decide +kernel
    | cons b blanks => cases hc; exact hblank hfront

/-- **What stands between two compounds is read as their combinator.** -/
theorem Combinator.Gap.reads (h : combinator.Gap gap) (left : Complex) (tail : List Char) :
    readComplex (some left) none (gap ++ tail) = readComplex (some left) (some combinator) tail := by
  have hblank : ∀ {c : Char} {blanks : List Char}, Text.AllBlank (c :: blanks) → ∀ tail,
      readComplex (some left) none (c :: blanks ++ tail) = readComplex (some left) (some .descendant) tail := by
    intro c blanks hblanks tail
    rw [List.cons_append, readComplex_blank (hblanks c List.mem_cons_self)]
    exact readComplex_blanks (fun d hd => hblanks d (List.mem_cons_of_mem _ hd)) left tail
  cases h with
  | descendant hblanks hne =>
    cases gap with
    | nil => exact absurd rfl hne
    | cons b blanks => exact hblank hblanks tail
  | @child front behind hfront hbehind =>
    have hchild : ∀ pending, pending ≠ some .child → readComplex (some left) pending ('>' :: (behind ++ tail)) =
        readComplex (some left) (some .child) tail := by
      intro pending hpending
      rw [readComplex_child, if_neg (by simp [hpending])]
      exact readComplex_blanks hbehind left tail
    rw [List.append_assoc, List.cons_append]
    cases front with
    | nil => exact hchild none (by simp)
    | cons b blanks => exact (hblank hfront _).trans (hchild _ (by simp))

/-- What begins a compound is no blank and no `>`. -/
theorem not_blank_of_read {c : Char} {rest : List Char} {result : Compound × List Char}
    (h : readCompound c rest = .ok result) : Text.isBlank c = false ∧ c ≠ '>' := by
  constructor
  · rw [Bool.eq_false_iff]
    intro hc
    have hstar : c ≠ '*' := by
      rintro rfl
      revert hc
      decide
    rw [readCompound, if_neg hstar, if_neg (by simp [isIdentChar_of_isBlank hc]),
      if_neg (by simp [isQualifierStart_of_isBlank hc])] at h
    cases h
  · rintro rfl
    have hident : isIdentChar '>' = false := by decide +kernel
    rw [readCompound, if_neg (by decide), if_neg (by simp [hident]), if_neg (by decide)] at h
    cases h

/-- A wording of a compound is read behind a chain. -/
theorem Compound.Wording.reads_behind (h : compound.Wording word) {chain : Option Complex} {pending : Option Combinator}
    (hjoined : joined chain pending compound = .ok complex) (hends : Ends tail) :
    readComplex chain pending (word ++ tail) = readComplex (some complex) none tail := by
  obtain ⟨c, body, rfl, hread⟩ := h.reads
  have hcompound : readCompound c (body ++ tail) = .ok (compound, tail) := by
    rw [hread tail hends.breaks]
    exact readQualifiers_of_stop compound fun d hd => (hends d hd).2
  obtain ⟨hblank, hchild⟩ := not_blank_of_read hcompound
  rw [List.cons_append, readComplex_compound hblank hchild, hcompound]
  simp only [Except.bind, hjoined]

/-- **A wording of a chain is read as that chain**, whatever comes behind it that is no part of its last compound. -/
theorem Complex.Wording.reads (h : complex.Wording word) (hends : Ends tail) :
    readComplex none none (word ++ tail) = readComplex (some complex) none tail := by
  induction h generalizing tail with
  | compound hc => exact hc.reads_behind rfl hends
  | @join left combinator right front gap word hleft hgap hright ih =>
    rw [List.append_assoc, List.append_assoc, ih (hgap.ends _), hgap.reads]
    exact hright.reads_behind rfl hends

theorem IsName.last {name : List Char} (h : IsName name) : ∀ c ∈ name.getLast?, Text.isBlank c = false := by
  intro c hc
  rw [Bool.eq_false_iff]
  intro hblank
  have hident := h.2 c (List.mem_of_mem_getLast? hc)
  rw [isIdentChar_of_isBlank hblank] at hident
  cases hident

theorem Qualifier.Wording.last {q : Qualifier} (h : q.Wording word) : ∀ c ∈ word.getLast?, Text.isBlank c = false := by
  -- a bracket that closes, or the last character of a name
  have hclose : ∀ {front : List Char} {close : Char}, Text.isBlank close = false →
      ∀ c ∈ (front ++ [close]).getLast?, Text.isBlank c = false := by
    intro front close hclose c hc
    rw [List.getLast?_concat] at hc
    cases hc
    exact hclose
  have hname : ∀ {mark : Char} {name : List Char}, IsName name →
      ∀ c ∈ (mark :: name).getLast?, Text.isBlank c = false := by
    intro mark name hname c hc
    rw [List.getLast?_cons_of_ne_nil hname.1] at hc
    exact hname.last c hc
  cases h with
  | id hword => exact hname hword
  | className hword => exact hname hword
  | @attr body name value =>
    rw [← List.cons_append]
    exact hclose (by decide)
  | @position body n =>
    rw [← List.cons_append, ← List.cons_append, ← List.append_assoc]
    exact hclose (by decide)

/-- **A wording of a compound neither begins nor ends with a blank.** -/
theorem Compound.Wording.snug (h : compound.Wording word) : Text.Snug word := by
  constructor
  · obtain ⟨c, body, rfl, hread⟩ := h.reads
    have hcompound : readCompound c (body ++ []) = .ok (compound, []) := by
      rw [hread [] ends_nil.breaks]
      exact readQualifiers_of_stop compound (by simp)
    intro d hd
    cases hd
    exact (not_blank_of_read hcompound).1
  · cases h with
    | universal => exact (Text.snug_singleton (by decide)).last
    | tag hname => exact hname.last
    | qualifier hq => exact hq.last
    | @add compound q front word hfront hq =>
      obtain ⟨c, body, rfl, -⟩ := hq.reads
      intro d hd
      rw [List.getLast?_append, Option.mem_def, Option.or_eq_some_iff] at hd
      obtain hd | ⟨hnone, -⟩ := hd
      · exact hq.last d hd
      · exact absurd hnone (by simp)

theorem Complex.Wording.ne_nil (h : complex.Wording word) : word ≠ [] := by
  cases h with
  | compound hc =>
    obtain ⟨c, body, rfl, -⟩ := hc.reads
    simp
  | join hleft hgap hright =>
    obtain ⟨c, body, rfl, -⟩ := hright.reads
    simp

theorem Complex.Wording.snug (h : complex.Wording word) : Text.Snug word := by
  induction h with
  | compound hc => exact hc.snug
  | @join left combinator right front gap word hleft hgap hright ih =>
    exact ih.append hleft.ne_nil gap hright.snug (Complex.Wording.compound hright).ne_nil

/-- **A piece is read as its chain.** -/
theorem Complex.Piece.reads {piece : List Char} (h : complex.Piece piece) : readAlternative piece = .ok complex := by
  obtain ⟨hfront, hword, hbehind⟩ := h
  have hread := hword.reads ends_nil
  rw [List.append_nil, readComplex_nil complex (by simp)] at hread
  rw [readAlternative, Text.trimChars_of_snug hfront hword.snug hbehind]
  exact hread

/-! ## What is read is a piece -/

/-- **How far a chain has been read**: to its beginning, behind a compound, or behind a combinator. -/
inductive Begun : Option Complex → Option Combinator → List Char → Prop
  | start {front : List Char} (hfront : Text.AllBlank front) : Begun none none front
  | chain {left : Complex} {front word : List Char} (hfront : Text.AllBlank front) (hword : left.Wording word) :
    Begun (some left) none (front ++ word)
  | gap {left : Complex} {combinator : Combinator} {front word gap : List Char} (hfront : Text.AllBlank front)
    (hword : left.Wording word) (hgap : combinator.Gap gap) : Begun (some left) (some combinator) (front ++ word ++ gap)

variable {chain : Option Complex} {pending : Option Combinator} {read cs : List Char}

theorem Begun.blank (h : Begun chain pending read) {c : Char} (hc : Text.isBlank c = true) :
    Begun chain (if chain.isSome ∧ pending = none then some .descendant else pending) (read ++ [c]) := by
  have hone : Text.AllBlank [c] := by
    intro d hd
    rwa [List.mem_singleton.mp hd]
  cases h with
  | start hfront => exact .start (hfront.append hone)
  | chain hfront hword => exact .gap hfront hword (.descendant hone (by simp))
  | @gap left combinator front word gap hfront hword hgap =>
    rw [if_neg (by simp), List.append_assoc]
    refine .gap hfront hword ?_
    cases hgap with
    | descendant hblanks hne => exact .descendant (hblanks.append hone) (by simp)
    | child hbefore hbehind =>
      rw [List.append_assoc, List.cons_append]
      exact .child hbefore (hbehind.append hone)

theorem Begun.child (h : Begun chain pending read) (hno : ¬(chain = none ∨ pending = some .child)) :
    Begun chain (some .child) (read ++ ['>']) := by
  rw [not_or] at hno
  cases h with
  | start => exact absurd rfl hno.1
  | chain hfront hword => exact .gap hfront hword (.child Text.allBlank_nil Text.allBlank_nil)
  | @gap left combinator front word gap hfront hword hgap =>
    cases hgap with
    | child => exact absurd rfl hno.2
    | descendant hblanks hne =>
      rw [List.append_assoc]
      exact .gap hfront hword (.child hblanks Text.allBlank_nil)

theorem Begun.join (h : Begun chain pending read) (hword : compound.Wording word)
    (hjoined : joined chain pending compound = .ok complex) : Begun (some complex) none (read ++ word) := by
  cases h with
  | start hfront => cases hjoined; exact .chain hfront (.compound hword)
  | chain => cases hjoined
  | @gap left combinator front before gap hfront hleft hgap =>
    cases hjoined
    rw [List.append_assoc, List.append_assoc, ← List.append_assoc before]
    exact .chain hfront (.join hleft hgap hword)

/-- A chain that has been read to the end is a piece. -/
theorem Begun.piece (h : Begun (some complex) pending read) (hpending : pending ≠ some .child) : complex.Piece read := by
  cases h with
  | chain hfront hword =>
    have hpiece := Complex.Piece.mk hfront hword Text.allBlank_nil
    rwa [List.append_nil] at hpiece
  | gap hfront hword hgap =>
    cases hgap with
    | child => exact absurd rfl hpending
    | descendant hblanks => exact .mk hfront hword hblanks

/-- **What is left to read makes a piece with what has been read.** -/
theorem Begun.piece_of_read (h : Begun chain pending read) (hread : readComplex chain pending cs = .ok complex) :
    complex.Piece (read ++ cs) := by
  -- the reader's own induction: each step takes a character or a compound over to what has been read
  fun_induction readComplex chain pending cs generalizing read with
  | case1 => cases hread
  | case2 => cases hread
  | case3 pending hpending left =>
    cases hread
    rw [List.append_nil]
    exact h.piece hpending
  | case4 chain pending c rest hc ih =>
    have hpiece := ih (h.blank hc) hread
    rwa [List.append_assoc] at hpiece
  | case5 => cases hread
  | case6 chain pending rest hno hblank ih =>
    have hpiece := ih (h.child hno) hread
    rwa [List.append_assoc] at hpiece
  | case7 => cases hread
  | case8 => cases hread
  | case9 chain pending c rest hc hchild compound behind hcompound left hjoined ih =>
    obtain ⟨body, rfl, hword⟩ := exists_wording hcompound
    have hpiece := ih (h.join hword hjoined) hread
    rwa [List.append_assoc] at hpiece

theorem Complex.Piece.padded {front piece behind : List Char} (hfront : Text.AllBlank front) (h : complex.Piece piece)
    (hbehind : Text.AllBlank behind) : complex.Piece (front ++ piece ++ behind) := by
  obtain @⟨front', word, behind', hfront', hword, hbehind'⟩ := h
  have hpiece := Complex.Piece.mk (hfront.append hfront') hword (hbehind'.append hbehind)
  simpa only [List.append_assoc] using hpiece

/-- **The pieces that are read as a chain are the wordings of the chain with blanks at their ends.** -/
theorem readAlternative_eq_ok_iff {piece : List Char} : readAlternative piece = .ok complex ↔ complex.Piece piece := by
  refine ⟨fun h => ?_, Complex.Piece.reads⟩
  obtain ⟨front, behind, hfront, hbehind, -, heq⟩ := Text.exists_snug piece
  have hcore : complex.Piece (Text.trimChars piece) := (Begun.start Text.allBlank_nil).piece_of_read h
  rw [heq]
  exact .padded hfront hcore hbehind

end Databind.Selector
