import Databind.Proofs.Pasting
import Mathlib.Data.List.Forall2

/-!
# `Proofs.Listing` — pieces that are listed and split again

Pieces between commas come back when their list is split, as long as no comma within a piece separates and every bracket
in front of a comma is closed. That is settled by the brackets and commas of each piece alone: pieces that are `Alike` may
be put for one another. Pieces that are read as alternatives come back in any case if their list is read
(`split_of_read`), because no alternative goes on behind a comma outside brackets.

## Main definitions

* `Selector.listed` — pieces with commas between them.
* `Selector.openBehind?` — the brackets that are open behind a text that no comma separates.
* `Selector.Plain` — texts without brackets and commas.
* `Selector.Alike` — texts that splitting treats alike.
* `Selector.Apart` — pieces that come back when their list is split.
-/

namespace Databind.Selector

variable {depth : Nat} {cs cs' behind piece : List Char} {pieces pieces' : List (List Char)}

/-- Pieces with commas between them. -/
def listed (pieces : List (List Char)) : List Char := [','].intercalate pieces

@[simp] theorem listed_singleton (piece : List Char) : listed [piece] = piece := List.intercalate_singleton

theorem listed_cons (piece : List Char) (hne : pieces ≠ []) : listed (piece :: pieces) = piece ++ ',' :: listed pieces := by
  unfold listed
  rw [List.intercalate_cons_of_ne_nil hne, List.append_assoc, List.singleton_append]

/-! ## Brackets -/

/-- **The brackets that are open behind a text**, if some are open before it and no comma in it separates. -/
def openBehind? (depth : Nat) : List Char → Option Nat
  | [] => some depth
  | c :: rest => if c = ',' ∧ depth = 0 then none else openBehind? (depthBehind depth [c]) rest

theorem openBehind?_append (depth : Nat) (cs behind : List Char) :
    openBehind? depth (cs ++ behind) = (openBehind? depth cs).bind fun depth => openBehind? depth behind := by
  induction cs generalizing depth with
  | nil => rfl
  | cons c rest ih =>
    simp only [List.cons_append, openBehind?]
    split
    · rfl
    · exact ih _

/-- **Where more brackets are open, no comma separates that did not separate before.** -/
theorem isSome_openBehind_of_le {deeper : Nat} (hle : depth ≤ deeper) (h : (openBehind? depth cs).isSome) :
    (openBehind? deeper cs).isSome := by
  -- each character keeps the order of the depths, and a comma that separates needs depth zero
  induction cs generalizing depth deeper with
  | nil => rfl
  | cons c rest ih =>
    rw [openBehind?] at h ⊢
    by_cases hc : c = ',' ∧ depth = 0
    · rw [if_pos hc] at h
      cases h
    · have hc' : ¬(c = ',' ∧ deeper = 0) := fun h => hc ⟨h.1, by omega⟩
      rw [if_neg hc] at h
      rw [if_neg hc']
      exact ih (depthBehind_le_depthBehind hle c) h

/-- No comma separates a text that is pasted together from two that none separates. -/
theorem isSome_openBehind_append (h : (openBehind? depth cs).isSome) (hbehind : (openBehind? 0 behind).isSome) :
    (openBehind? depth (cs ++ behind)).isSome := by
  obtain ⟨deeper, hdeeper⟩ := Option.isSome_iff_exists.mp h
  rw [openBehind?_append, hdeeper, Option.bind_some]
  exact isSome_openBehind_of_le (Nat.zero_le deeper) hbehind

/-- A text without brackets and commas. -/
def Plain (cs : List Char) : Prop := ∀ c ∈ cs, c ≠ ',' ∧ c ≠ '(' ∧ c ≠ '[' ∧ c ≠ ')' ∧ c ≠ ']'

theorem Plain.append (h : Plain cs) (hbehind : Plain behind) : Plain (cs ++ behind) := fun c hc =>
  (List.mem_append.mp hc).elim (h c) (hbehind c)

theorem Plain.cons {c : Char} (hc : Plain [c]) (h : Plain cs) : Plain (c :: cs) := hc.append h

instance (cs : List Char) : Decidable (Plain cs) :=
  List.decidableBAll (fun c => c ≠ ',' ∧ c ≠ '(' ∧ c ≠ '[' ∧ c ≠ ')' ∧ c ≠ ']') cs

/-- A text of characters of a kind to which no bracket and no comma belongs. -/
theorem plain_of_all {p : Char → Bool} (hp : [',', '(', '[', ')', ']'].all (fun c => !p c) = true)
    (h : ∀ c ∈ cs, p c = true) : Plain cs := by
  have hne : ∀ {c : Char}, c ∈ cs → ∀ d ∈ [',', '(', '[', ')', ']'], c ≠ d := by
    rintro c hc d hd rfl
    have hno := List.all_eq_true.mp hp c hd
    rw [h c hc] at hno
    cases hno
  intro c hc
  simpa using hne hc

theorem plain_of_blank (h : Text.AllBlank cs) : Plain cs := plain_of_all (by decide) h

/-- A text without brackets and commas changes nothing. -/
theorem openBehind?_of_plain (h : Plain cs) (depth : Nat) : openBehind? depth cs = some depth := by
  induction cs with
  | nil => rfl
  | cons c rest ih =>
    obtain ⟨hcomma, hbrackets⟩ := h c List.mem_cons_self
    have hdepth : depthBehind depth [c] = depth := depthBehind_of_plain (by simpa using hbrackets) depth
    rw [openBehind?, if_neg fun hc => hcomma hc.1, hdepth]
    exact ih fun d hd => h d (List.mem_cons_of_mem _ hd)

/-- A text that no comma separates is one piece. -/
theorem splitAlternatives_of_openBehind {behind : Nat} (h : openBehind? depth cs = some behind) :
    splitAlternatives depth cs = [cs] ∧ depthBehind depth cs = behind := by
  induction cs generalizing depth with
  | nil => exact ⟨rfl, Option.some.inj h⟩
  | cons c rest ih =>
    rw [openBehind?] at h
    split at h
    · cases h
    · next hc =>
      obtain ⟨hsplit, hdepth⟩ := ih h
      exact ⟨splitAlternatives_cons hc hsplit, hdepth⟩

/-- **The first piece of a text, and what is behind it.** It is the whole text, or a comma comes behind it where no bracket
is open. -/
theorem splitAlternatives_eq_cons (h : splitAlternatives depth cs = piece :: pieces) :
    pieces = [] ∧ cs = piece ∧ (openBehind? depth piece).isSome ∨
      ∃ behind, cs = piece ++ ',' :: behind ∧ openBehind? depth piece = some 0 ∧ splitAlternatives 0 behind = pieces := by
  induction cs generalizing depth piece with
  | nil =>
    obtain ⟨rfl, rfl⟩ := List.cons.inj h
    exact .inl ⟨rfl, rfl, rfl⟩
  | cons c rest ih =>
    by_cases hc : c = ',' ∧ depth = 0
    · obtain ⟨rfl, rfl⟩ := hc
      rw [splitAlternatives_comma] at h
      obtain ⟨rfl, hrest⟩ := List.cons.inj h
      exact .inr ⟨rest, rfl, rfl, hrest⟩
    · obtain ⟨piece', pieces', hrest⟩ :=
        List.exists_cons_of_ne_nil (splitAlternatives_ne_nil (depthBehind depth [c]) rest)
      rw [splitAlternatives_cons hc hrest] at h
      obtain ⟨rfl, rfl⟩ := List.cons.inj h
      simp only [openBehind?, if_neg hc]
      obtain ⟨hnil, rfl, hopen⟩ | ⟨behind, rfl, hopen, hbehind⟩ := ih hrest
      · exact .inl ⟨hnil, rfl, hopen⟩
      · exact .inr ⟨behind, rfl, hopen, hbehind⟩

/-- The pieces of a text make up the text again. -/
theorem listed_splitAlternatives (depth : Nat) (cs : List Char) : listed (splitAlternatives depth cs) = cs := by
  induction hpieces : splitAlternatives depth cs generalizing depth cs with
  | nil => exact absurd hpieces (splitAlternatives_ne_nil depth cs)
  | cons piece pieces ih =>
    obtain ⟨rfl, rfl, -⟩ | ⟨behind, rfl, -, hbehind⟩ := splitAlternatives_eq_cons hpieces
    · exact listed_singleton _
    · rw [listed_cons _ (hbehind ▸ splitAlternatives_ne_nil 0 behind), ih 0 behind hbehind]

/-! ## Pieces that stay apart -/

/-- **Pieces that come back when their list is split**: no comma in a piece separates, and no bracket is open behind a piece
but the last. -/
def Apart : List (List Char) → Prop
  | [] => False
  | [piece] => (openBehind? 0 piece).isSome
  | piece :: pieces => openBehind? 0 piece = some 0 ∧ Apart pieces

theorem Apart.split (h : Apart pieces) : splitAlternatives 0 (listed pieces) = pieces := by
  induction pieces with
  | nil => exact h.elim
  | cons piece pieces ih =>
    cases pieces with
    | nil =>
      obtain ⟨behind, hopen⟩ := Option.isSome_iff_exists.mp h
      rw [listed_singleton]
      exact (splitAlternatives_of_openBehind hopen).1
    | cons piece' pieces =>
      obtain ⟨hsplit, hdepth⟩ := splitAlternatives_of_openBehind h.1
      have hcomma : splitAlternatives (depthBehind 0 piece) (',' :: listed (piece' :: pieces)) =
          [] :: piece' :: pieces := by
        rw [hdepth, splitAlternatives_comma, ih h.2]
      have hall := splitAlternatives_append [] hsplit hcomma
      rwa [List.append_nil, ← listed_cons piece (by simp)] at hall

/-- **The pieces that a text is split into stay apart.** -/
theorem apart_splitAlternatives (cs : List Char) : Apart (splitAlternatives 0 cs) := by
  induction hpieces : splitAlternatives 0 cs generalizing cs with
  | nil => exact absurd hpieces (splitAlternatives_ne_nil 0 cs)
  | cons piece pieces ih =>
    obtain ⟨rfl, rfl, hopen⟩ | ⟨behind, rfl, hopen, hbehind⟩ := splitAlternatives_eq_cons hpieces
    · exact hopen
    · cases pieces with
      | nil => exact absurd hbehind (splitAlternatives_ne_nil 0 behind)
      | cons piece' pieces => exact ⟨hopen, ih behind hbehind⟩

/-! ## Texts that splitting treats alike -/

/-- **Two texts that splitting treats alike**: a comma separates in both or in none, and the same brackets are open behind
them. -/
def Alike (cs cs' : List Char) : Prop := ∀ depth, openBehind? depth cs = openBehind? depth cs'

namespace Alike

theorem refl (cs : List Char) : Alike cs cs := fun _ => rfl

theorem symm (h : Alike cs cs') : Alike cs' cs := fun depth => (h depth).symm

theorem trans {cs'' : List Char} (h : Alike cs cs') (h' : Alike cs' cs'') : Alike cs cs'' := fun depth =>
  (h depth).trans (h' depth)

theorem append {behind' : List Char} (h : Alike cs cs') (hbehind : Alike behind behind') :
    Alike (cs ++ behind) (cs' ++ behind') := by
  intro depth
  rw [openBehind?_append, openBehind?_append, h depth]
  congr 1
  funext depth'
  exact hbehind depth'

/-- A text without brackets and commas might as well not be there. -/
theorem of_plain (h : Plain cs) : Alike cs [] := fun depth => openBehind?_of_plain h depth

theorem around {front : List Char} (hfront : Plain front) (cs : List Char) (hbehind : Plain behind) :
    Alike (front ++ cs ++ behind) cs := by
  have h := ((of_plain hfront).append (refl cs)).append (of_plain hbehind)
  rwa [List.nil_append, List.append_nil] at h

/-- A pair of brackets closes itself. -/
theorem parenthesized (h : Plain cs) : Alike ('(' :: (cs ++ [')'])) [] := by
  intro depth
  have hopen : ∀ rest, openBehind? depth ('(' :: rest) = openBehind? (depth + 1) rest := fun rest => by
    simp [openBehind?, depthBehind]
  rw [hopen, openBehind?_append, openBehind?_of_plain h]
  simp [openBehind?, depthBehind]

end Alike

/-- **Pieces that are alike stay apart alike.** -/
theorem Apart.of_alike (h : List.Forall₂ Alike pieces pieces') (hapart : Apart pieces) : Apart pieces' := by
  induction h with
  | nil => exact hapart
  | cons hfirst hrest ih =>
    cases hrest with
    | nil =>
      show (openBehind? 0 _).isSome
      rw [← hfirst 0]
      exact hapart
    | cons hsecond hrest => exact ⟨(hfirst 0).symm.trans hapart.1, ih hapart.2⟩

/-! ## Pieces that are read -/

/-- A piece that is read as an alternative. -/
def Readable (piece : List Char) : Prop := ∃ complex, readAlternative piece = .ok complex

/-- No piece that is read goes on behind a comma as another. -/
theorem Readable.not_comma (h : Readable piece) (behind : List Char) : ¬Readable (piece ++ ',' :: behind) := by
  obtain ⟨complex, hread⟩ := h
  rintro ⟨complex', hread'⟩
  rw [readAlternative_comma hread] at hread'
  cases hread'

/-- Two pieces that are read and begin the same text, each before a comma, are the same. -/
theorem Readable.eq_of_comma {piece' behind' : List Char} (h : Readable piece) (h' : Readable piece')
    (heq : piece ++ ',' :: behind = piece' ++ ',' :: behind') : piece = piece' ∧ behind = behind' := by
  obtain ⟨front, rfl, hrest⟩ | ⟨front, rfl, hrest⟩ := List.append_eq_append_iff.mp heq
  · cases front with
    | nil => exact ⟨(List.append_nil _).symm, (List.cons.inj hrest).2⟩
    | cons c front =>
      obtain ⟨rfl, -⟩ := List.cons.inj hrest
      exact absurd h' (h.not_comma front)
  · cases front with
    | nil => exact ⟨List.append_nil _, (List.cons.inj hrest).2.symm⟩
    | cons c front =>
      obtain ⟨rfl, -⟩ := List.cons.inj hrest
      exact absurd h (h'.not_comma front)

/-- **There is one way to list pieces that are read.** -/
theorem eq_of_listed_eq (hne : pieces ≠ []) (hne' : pieces' ≠ []) (h : ∀ piece ∈ pieces, Readable piece)
    (h' : ∀ piece ∈ pieces', Readable piece) (heq : listed pieces = listed pieces') : pieces = pieces' := by
  induction pieces generalizing pieces' with
  | nil => exact absurd rfl hne
  | cons piece pieces ih =>
    obtain ⟨piece', pieces', rfl⟩ := List.exists_cons_of_ne_nil hne'
    obtain ⟨hpiece, hpieces⟩ := List.forall_mem_cons.mp h
    obtain ⟨hpiece', hpieces'⟩ := List.forall_mem_cons.mp h'
    -- where one list ends and the other goes on, a piece that is read would go on behind a comma
    by_cases hlast : pieces = [] <;> by_cases hlast' : pieces' = []
    · subst hlast hlast'
      rw [listed_singleton, listed_singleton] at heq
      rw [heq]
    · subst hlast
      rw [listed_singleton, listed_cons _ hlast'] at heq
      exact absurd (heq ▸ hpiece) (hpiece'.not_comma _)
    · subst hlast'
      rw [listed_singleton, listed_cons _ hlast] at heq
      exact absurd (heq ▸ hpiece') (hpiece.not_comma _)
    · rw [listed_cons _ hlast, listed_cons _ hlast'] at heq
      obtain ⟨rfl, hbehind⟩ := hpiece.eq_of_comma hpiece' heq
      rw [ih hlast hlast' hpieces hpieces' hbehind]

theorem readAlternatives_eq_ok_iff {complexes : List Complex} :
    readAlternatives pieces = .ok complexes ↔
      List.Forall₂ (fun complex piece => readAlternative piece = .ok complex) complexes pieces := by
  induction pieces generalizing complexes with
  | nil => rw [List.forall₂_nil_right_iff, readAlternatives, Except.ok.injEq, eq_comm]
  | cons piece pieces ih =>
    rw [readAlternatives_cons_eq_ok]
    constructor
    · rintro ⟨complex, rest, hcomplex, hrest, rfl⟩
      exact .cons hcomplex (ih.mp hrest)
    · intro h
      obtain ⟨complex, rest, hcomplex, hrest, rfl⟩ := List.forall₂_cons_right_iff.mp h
      exact ⟨complex, rest, hcomplex, ih.mpr hrest, rfl⟩

theorem readable_of_read {complexes : List Complex} (h : readAlternatives pieces = .ok complexes) :
    ∀ piece ∈ pieces, Readable piece := by
  induction pieces generalizing complexes with
  | nil => simp
  | cons piece pieces ih =>
    obtain ⟨complex, rest, hcomplex, hrest, -⟩ := readAlternatives_cons_eq_ok.mp h
    exact List.forall_mem_cons.mpr ⟨⟨complex, hcomplex⟩, ih hrest⟩

/-- **A list that is read is split into the pieces that it was made of**, if each of these is read as well. -/
theorem split_of_read {complexes : List Complex} (hne : pieces ≠ []) (h : ∀ piece ∈ pieces, Readable piece)
    (hread : readList (listed pieces) = .ok complexes) : splitAlternatives 0 (listed pieces) = pieces :=
  eq_of_listed_eq (splitAlternatives_ne_nil _ _) hne (readable_of_read hread) h (listed_splitAlternatives 0 _)

end Databind.Selector
