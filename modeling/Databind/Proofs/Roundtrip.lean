import Databind.Proofs.Narrowing
import Databind.Proofs.Rewording

/-!
# `Proofs.Roundtrip` — selectors written and read

`Selector.text` writes a selector, with commas between its alternatives. Reading that text gives the selector back if it
was read from any text, and so does reading any text that differs from the one that was read in nothing but the blanks
around combinators and commas (`parse_text_of_parse`).

Two readers have to agree on such a text. The one that reads a chain takes any wording of it. The one that splits
alternatives counts brackets, also those in the names and values of attributes. But the wordings of a chain are alike, so
whatever wordings are chosen for the alternatives, they stay apart as those did that were read (`readList_of_pieces`).

## Main definitions

* `Selector.text` — the text of a selector.
* `Selector.Respaced` — texts that differ only in the blanks around combinators and commas.
-/

namespace Databind.Selector

variable {complexes : List Complex} {pieces : List (List Char)} {cs : List Char}

/-! ## Lists of alternatives -/

theorem forall₂_alike {pieces' : List (List Char)}
    (h : List.Forall₂ Complex.Piece complexes pieces) (h' : List.Forall₂ Complex.Piece complexes pieces') :
    List.Forall₂ Alike pieces pieces' := by
  induction h generalizing pieces' with
  | nil =>
    cases h'
    exact .nil
  | cons hpiece hrest ih =>
    cases h' with
    | cons hpiece' hrest' => exact .cons (hpiece.alike hpiece') (ih hrest')

/-- What is read lists pieces of its alternatives. -/
theorem pieces_of_readList (h : readList cs = .ok complexes) :
    List.Forall₂ Complex.Piece complexes (splitAlternatives 0 cs) :=
  (readAlternatives_eq_ok_iff.mp h).imp fun _ _ => readAlternative_eq_ok_iff.mp

/-- **The texts that are read as some alternatives** list pieces of them that stay apart. -/
theorem readList_eq_ok_iff : readList cs = .ok complexes ↔
    ∃ pieces, List.Forall₂ Complex.Piece complexes pieces ∧ Apart pieces ∧ cs = listed pieces := by
  constructor
  · intro h
    exact ⟨_, pieces_of_readList h, apart_splitAlternatives cs, (listed_splitAlternatives 0 cs).symm⟩
  · rintro ⟨pieces, hpieces, hapart, rfl⟩
    rw [readList, hapart.split]
    exact readAlternatives_eq_ok_iff.mpr (hpieces.imp fun _ _ => readAlternative_eq_ok_iff.mpr)

/-- **The texts that are read as one alternative** are the pieces of it that no comma separates. -/
theorem readList_eq_singleton_iff {complex : Complex} :
    readList cs = .ok [complex] ↔ complex.Piece cs ∧ (openBehind? 0 cs).isSome := by
  rw [readList_eq_ok_iff]
  constructor
  · rintro ⟨pieces, hpieces, hapart, rfl⟩
    obtain ⟨piece, rest, hpiece, hrest, rfl⟩ := List.forall₂_cons_left_iff.mp hpieces
    rw [List.forall₂_nil_left_iff] at hrest
    subst hrest
    rw [listed_singleton]
    exact ⟨hpiece, hapart⟩
  · rintro ⟨hpiece, hopen⟩
    exact ⟨[cs], .cons hpiece .nil, hopen, (listed_singleton cs).symm⟩

/-- **If one list of pieces of some alternatives is read, every such list is**, as the same alternatives. -/
theorem readList_of_pieces (h : readList cs = .ok complexes) (hpieces : List.Forall₂ Complex.Piece complexes pieces) :
    readList (listed pieces) = .ok complexes := by
  obtain ⟨pieces', hpieces', hapart, -⟩ := readList_eq_ok_iff.mp h
  exact readList_eq_ok_iff.mpr ⟨pieces, hpieces, hapart.of_alike (forall₂_alike hpieces' hpieces), rfl⟩

/-! ## The text of a selector -/

/-- **The text of a selector**: its alternatives with commas between them. -/
def text (selector : Selector) : String :=
  String.ofList ([',', ' '].intercalate (selector.alternatives.map Complex.text))

/-- A blank behind a comma belongs to the next piece. -/
theorem intercalate_eq_listed (piece : List Char) (pieces : List (List Char)) :
    [',', ' '].intercalate (piece :: pieces) = listed (piece :: pieces.map (' ' :: ·)) := by
  have hblank : ∀ (piece : List Char) (pieces : List (List Char)),
      listed ((' ' :: piece) :: pieces) = ' ' :: listed (piece :: pieces) := by
    intro piece pieces
    by_cases hlast : pieces = []
    · rw [hlast, listed_singleton, listed_singleton]
    · rw [listed_cons _ hlast, listed_cons _ hlast, List.cons_append]
  induction pieces generalizing piece with
  | nil => rw [List.intercalate_singleton, List.map_nil, listed_singleton]
  | cons piece' pieces ih =>
    rw [List.intercalate_cons_of_ne_nil (List.cons_ne_nil _ _), ih, List.map_cons, listed_cons _ (List.cons_ne_nil _ _),
      hblank]
    simp

/-- The alternatives that are read have a wording, and so their texts are some. -/
theorem wording_of_readList (h : readList cs = .ok complexes) : ∀ complex ∈ complexes, complex.Wording complex.text := by
  have hpieces := pieces_of_readList h
  generalize splitAlternatives 0 cs = pieces at hpieces
  clear h
  induction hpieces with
  | nil => simp
  | cons hpiece hrest ih =>
    obtain ⟨-, hword, -⟩ := hpiece
    exact List.forall_mem_cons.mpr ⟨hword.text, ih⟩

theorem readList_text {selector : Selector} (h : readList cs = .ok selector.alternatives) :
    readList selector.text.toList = .ok selector.alternatives := by
  have hwords := wording_of_readList h
  have hpieces := pieces_of_readList h
  obtain ⟨alternatives⟩ := selector
  cases alternatives with
  | nil => exact absurd (List.forall₂_nil_left_iff.mp hpieces) (splitAlternatives_ne_nil 0 cs)
  | cons first rest =>
    obtain ⟨hfirst, hrest⟩ := List.forall_mem_cons.mp hwords
    have hblank : Text.AllBlank [' '] := by decide
    have hpiece : ∀ {front : List Char} {complex : Complex}, Text.AllBlank front → complex.Wording complex.text →
        complex.Piece (front ++ complex.text) := by
      intro front complex hfront hword
      have hpiece := Complex.Piece.mk hfront hword Text.allBlank_nil
      rwa [List.append_nil] at hpiece
    rw [text, String.toList_ofList, List.map_cons, intercalate_eq_listed]
    refine readList_of_pieces h (.cons (hpiece Text.allBlank_nil hfirst) ?_)
    rw [List.map_map, List.forall₂_map_right_iff, List.forall₂_same]
    exact fun complex hcomplex => hpiece hblank (hrest complex hcomplex)

/-! ## Blanks around combinators and commas -/

/-- Two texts of a chain that differ only in the blanks around combinators. -/
inductive RespacedChain : List Char → List Char → Prop
  | compound {c : Compound} {word : List Char} (hc : c.Wording word) : RespacedChain word word
  | join {front front' gap gap' word : List Char} {combinator : Combinator} {right : Compound}
    (hleft : RespacedChain front front') (hgap : combinator.Gap gap) (hgap' : combinator.Gap gap')
    (hright : right.Wording word) : RespacedChain (front ++ gap ++ word) (front' ++ gap' ++ word)

/-- Two pieces of a list that differ only in the blanks around combinators and at their ends. -/
inductive RespacedPiece : List Char → List Char → Prop
  | mk {front front' word word' behind behind' : List Char} (hword : RespacedChain word word')
    (hfront : Text.AllBlank front) (hfront' : Text.AllBlank front') (hbehind : Text.AllBlank behind)
    (hbehind' : Text.AllBlank behind') : RespacedPiece (front ++ word ++ behind) (front' ++ word' ++ behind')

/-- **Two texts that differ only in the blanks around combinators and commas**, and at their ends. -/
def Respaced (text text' : String) : Prop :=
  ∃ pieces pieces', pieces ≠ [] ∧ List.Forall₂ RespacedPiece pieces pieces' ∧ text.toList = listed pieces ∧
    text'.toList = listed pieces'

theorem RespacedChain.exists_wording {word word' : List Char} (h : RespacedChain word word') :
    ∃ complex : Complex, complex.Wording word ∧ complex.Wording word' := by
  induction h with
  | compound hc => exact ⟨_, .compound hc, .compound hc⟩
  | join hleft hgap hgap' hright ih =>
    obtain ⟨left, hword, hword'⟩ := ih
    exact ⟨_, .join hword hgap hright, .join hword' hgap' hright⟩

theorem RespacedPiece.exists_piece {piece piece' : List Char} (h : RespacedPiece piece piece') :
    ∃ complex : Complex, complex.Piece piece ∧ complex.Piece piece' := by
  obtain ⟨hword, hfront, hfront', hbehind, hbehind'⟩ := h
  obtain ⟨complex, hleft, hright⟩ := hword.exists_wording
  exact ⟨complex, .mk hfront hleft hbehind, .mk hfront' hright hbehind'⟩

/-- A wording of a chain is itself with no blank changed. -/
theorem Complex.Wording.respaced {complex : Complex} {word : List Char} (h : complex.Wording word) :
    RespacedChain word word := by
  induction h with
  | compound hc => exact .compound hc
  | join hleft hgap hright ih => exact .join ih hgap hgap hright

/-- **A text that is read is laid out** as compounds, and blanks around combinators and commas. -/
theorem respaced_self {text : String} {selector : Selector} (h : parse text = .ok selector) : Respaced text text := by
  have hself : ∀ {complexes : List Complex} {pieces : List (List Char)}, List.Forall₂ Complex.Piece complexes pieces →
      List.Forall₂ RespacedPiece pieces pieces := by
    intro complexes pieces hpieces
    induction hpieces with
    | nil => exact .nil
    | cons hpiece hrest ih =>
      obtain ⟨hfront, hword, hbehind⟩ := hpiece
      exact .cons (.mk hword.respaced hfront hfront hbehind hbehind) ih
  have htext := (listed_splitAlternatives 0 text.toList).symm
  exact ⟨_, _, splitAlternatives_ne_nil 0 _, hself (pieces_of_readList (parse_eq_ok.mp h)), htext, htext⟩

/-- Pieces of some alternatives are pieces of them with the blanks changed. -/
theorem forall₂_piece_of_respaced {pieces' : List (List Char)} (h : List.Forall₂ RespacedPiece pieces pieces')
    (hpieces : List.Forall₂ Complex.Piece complexes pieces) : List.Forall₂ Complex.Piece complexes pieces' := by
  induction h generalizing complexes with
  | nil => exact hpieces
  | cons hfirst hrest ih =>
    cases hpieces with
    | @cons complex _ _ _ hpiece hothers =>
      obtain ⟨complex', hleft, hright⟩ := hfirst.exists_piece
      have hsame : complex = complex' := Except.ok.inj (hpiece.reads.symm.trans hleft.reads)
      exact .cons (hsame ▸ hright) (ih hothers)

theorem readList_respaced {text text' : String} (hrespaced : Respaced text text')
    (h : readList text.toList = .ok complexes) : readList text'.toList = .ok complexes := by
  obtain ⟨pieces, pieces', hne, hpieces, htext, htext'⟩ := hrespaced
  have hreadable : ∀ piece ∈ pieces, Readable piece := by
    clear hne htext htext'
    induction hpieces with
    | nil => simp
    | cons hfirst hrest ih =>
      obtain ⟨complex, hpiece, -⟩ := hfirst.exists_piece
      exact List.forall_mem_cons.mpr ⟨⟨complex, hpiece.reads⟩, ih⟩
  rw [htext] at h
  -- the reader splits the text into these very pieces, for there is one way to list pieces that are read
  have hread := pieces_of_readList h
  rw [split_of_read hne hreadable h] at hread
  rw [htext']
  exact readList_of_pieces h (forall₂_piece_of_respaced hpieces hread)

/-- **A selector that has been read is read again from its own text**, and from every text that differs from the one it was
read from only in the blanks around combinators and commas. Of these the text itself is one. -/
theorem parse_text_of_parse {text : String} {selector : Selector} (h : parse text = .ok selector) :
    parse selector.text = .ok selector ∧ Respaced text text ∧
      ∀ text', Respaced text text' → parse text' = .ok selector := by
  have hread := parse_eq_ok.mp h
  refine ⟨parse_eq_ok.mpr (readList_text hread), respaced_self h, ?_⟩
  intro text' hrespaced
  exact parse_eq_ok.mpr (readList_respaced hrespaced hread)

/-- Items in a list whose name has brackets and a comma in it. -/
def nestedItem : Selector where
  alternatives := [.join (.compound { tag := some "ul", attributes := [("title", some "a(b, c)")] }) .child
    { tag := some "li", id := some "last", position := some 2 }, .compound { universal := true }]

/-- Blanks in brackets, other quotes and an identifier that is replaced do not come back. -/
theorem parse_text_of_parse_brackets :
    parse " ul[ title = 'a(b, c)' ]>li#first:nth-of-type( +2 )#last ,*" = .ok nestedItem ∧
      parse "ul[title=\"a(b, c)\"] > li#last:nth-of-type(2), *" = .ok nestedItem ∧
      parse "ul[ title = 'a(b, c)' ] >  li#first:nth-of-type( +2 )#last,  * " = .ok nestedItem := by
  have hread : parse " ul[ title = 'a(b, c)' ]>li#first:nth-of-type( +2 )#last ,*" = .ok nestedItem := by decide +kernel
  have htext : nestedItem.text = "ul[title=\"a(b, c)\"] > li#last:nth-of-type(2), *" := by decide +kernel
  have hlist : Compound.Wording { tag := some "ul", attributes := [("title", some "a(b, c)")] }
      "ul[ title = 'a(b, c)' ]".toList := wording_of_read (by decide +kernel)
  have hitem : Compound.Wording { tag := some "li", id := some "last", position := some 2 }
      "li#first:nth-of-type( +2 )#last".toList := wording_of_read (by decide +kernel)
  have hblank : Text.AllBlank [' '] := by decide
  have hblanks : Text.AllBlank [' ', ' '] := by decide
  have hchain := RespacedChain.join (.compound hlist) (.child Text.allBlank_nil Text.allBlank_nil) (.child hblank hblanks)
    hitem
  have hrespaced : Respaced " ul[ title = 'a(b, c)' ]>li#first:nth-of-type( +2 )#last ,*"
      "ul[ title = 'a(b, c)' ] >  li#first:nth-of-type( +2 )#last,  * " :=
    ⟨[_, _], [_, _], List.cons_ne_nil _ _, .cons (.mk hchain hblank Text.allBlank_nil hblank Text.allBlank_nil)
      (.cons (.mk (.compound .universal) Text.allBlank_nil hblanks Text.allBlank_nil hblank) .nil), by decide +kernel,
      by decide +kernel⟩
  obtain ⟨hagain, -, hothers⟩ := parse_text_of_parse hread
  exact ⟨hread, htext ▸ hagain, hothers _ hrespaced⟩

end Databind.Selector
