import Databind.Proofs.Matching
import Databind.Proofs.Roundtrip

/-!
# `Proofs.Qualifying` — one more condition

A qualifier behind a compound is one more condition on the same element. Classes and attributes add up, and so a longer
compound matches fewer elements. An identifier and a position have one place each in a compound, and one that is written
later takes the place of the one before: the element has to fulfil the new condition and all others, but no longer the one
that was replaced.

## Main definitions

* `Selector.Qualifier.Holds` — an element fulfils one condition.
* `Selector.Compound.without` — the other conditions of a compound.
* `Selector.Compound.Keeps` — a qualifier replaces no other one.
-/

namespace Databind.Selector

variable {arena : Arena} {x : Nat} {compound : Compound} {q : Qualifier} {word cs : List Char}

/-! ## Conditions -/

/-- **An element fulfils one condition.** -/
def Qualifier.Holds (arena : Arena) (x : Nat) : Qualifier → Prop
  | id name => (arena.content x).attribute? "id" = some name
  | className name => name ∈ Text.words (((arena.content x).attribute? "class").getD "")
  | attr name expected =>
    ∃ value, (arena.content x).attribute? name = some value ∧ ∀ v, expected = some v → value = v
  | position n => arena.IsNthOfType x n

/-- The compound without the condition whose place a qualifier takes. -/
def Compound.without (compound : Compound) : Qualifier → Compound
  | .id _ => { compound with id := none }
  | .position _ => { compound with position := none }
  | _ => compound

/-- **A qualifier replaces no other condition** of a compound: its place is empty, or the same condition is there. -/
def Compound.Keeps (compound : Compound) : Qualifier → Prop
  | .id name => ∀ old, compound.id = some old → old = name
  | .position n => ∀ old, compound.position = some old → old = n
  | _ => True

/-- A compound that a qualifier was added to asks for the qualifier, and for all that was not replaced. -/
theorem Compound.fits_add : (compound.add q).Fits arena x ↔ (compound.without q).Fits arena x ∧ q.Holds arena x := by
  cases q with
  | id name =>
    constructor
    · intro h
      exact ⟨⟨h.tag, fun _ hid => (nomatch hid), h.classes, h.attributes, h.position⟩, h.id name rfl⟩
    · rintro ⟨h, hid⟩
      refine ⟨h.tag, ?_, h.classes, h.attributes, h.position⟩
      intro _ hname
      cases hname
      exact hid
  | className name =>
    constructor
    · intro h
      refine ⟨⟨h.tag, h.id, ?_, h.attributes, h.position⟩, h.classes name (List.mem_append_right _ List.mem_cons_self)⟩
      intro other hother
      exact h.classes other (List.mem_append_left _ hother)
    · rintro ⟨h, hclass⟩
      refine ⟨h.tag, h.id, ?_, h.attributes, h.position⟩
      intro other hother
      rcases List.mem_append.mp hother with hother | hother
      · exact h.classes other hother
      · exact List.mem_singleton.mp hother ▸ hclass
  | attr name expected =>
    constructor
    · intro h
      refine ⟨⟨h.tag, h.id, h.classes, ?_, h.position⟩,
        h.attributes name expected (List.mem_append_right _ List.mem_cons_self)⟩
      intro other expected' hother
      exact h.attributes other expected' (List.mem_append_left _ hother)
    · rintro ⟨h, hattr⟩
      refine ⟨h.tag, h.id, h.classes, ?_, h.position⟩
      intro other expected' hother
      rcases List.mem_append.mp hother with hother | hother
      · exact h.attributes other expected' hother
      · cases List.mem_singleton.mp hother
        exact hattr
  | position n =>
    constructor
    · intro h
      exact ⟨⟨h.tag, h.id, h.classes, h.attributes, fun _ hposition => (nomatch hposition)⟩, h.position n rfl⟩
    · rintro ⟨h, hposition⟩
      refine ⟨h.tag, h.id, h.classes, h.attributes, ?_⟩
      intro _ hn
      cases hn
      exact hposition

/-- All conditions of a compound hold, then those that a qualifier does not replace do. -/
theorem Compound.fits_without (h : compound.Fits arena x) : (compound.without q).Fits arena x := by
  cases q with
  | id name => exact ⟨h.tag, fun _ hid => (nomatch hid), h.classes, h.attributes, h.position⟩
  | className name => exact h
  | attr name expected => exact h
  | position n => exact ⟨h.tag, h.id, h.classes, h.attributes, fun _ hposition => (nomatch hposition)⟩

/-- **A qualifier that replaces no other condition adds its own.** -/
theorem Compound.fits_add_of_keeps (hkeeps : compound.Keeps q) :
    (compound.add q).Fits arena x ↔ compound.Fits arena x ∧ q.Holds arena x := by
  rw [fits_add]
  constructor
  · rintro ⟨h, hholds⟩
    refine ⟨?_, hholds⟩
    -- what the qualifier takes the place of, if there is anything, is the same condition
    cases q with
    | id name =>
      refine ⟨h.tag, ?_, h.classes, h.attributes, h.position⟩
      intro old hold
      exact hkeeps old hold ▸ hholds
    | className name => exact h
    | attr name expected => exact h
    | position n =>
      refine ⟨h.tag, h.id, h.classes, h.attributes, ?_⟩
      intro old hold
      exact hkeeps old hold ▸ hholds
  · rintro ⟨h, hholds⟩
    exact ⟨fits_without h, hholds⟩

/-! ## Texts that go on with a qualifier -/

/-- A text that is a single piece is read if and only if the piece is. -/
theorem readList_of_readable {complex : Complex} (h : readAlternative cs = .ok complex) {complexes : List Complex}
    (hread : readList cs = .ok complexes) : complexes = [complex] := by
  have hreadable : ∀ piece ∈ [cs], Readable piece := by
    intro piece hpiece
    rw [List.mem_singleton.mp hpiece]
    exact ⟨complex, h⟩
  -- the piece is read, so it stays whole in a text that is read
  rw [← listed_singleton cs] at hread
  have hsplit := split_of_read (List.cons_ne_nil _ _) hreadable hread
  rw [readList, hsplit, readAlternatives_eq_ok_iff, List.forall₂_cons_right_iff] at hread
  obtain ⟨complex', rest, hcomplex, hrest, rfl⟩ := hread
  rw [List.forall₂_nil_right_iff] at hrest
  rw [hrest, Except.ok.inj (hcomplex.symm.trans h)]

/-- A text that is read as one alternative is a wording of it between blanks. -/
theorem piece_of_parse {text : String} {complex : Complex} (h : parse text = .ok ⟨[complex]⟩) :
    complex.Piece text.toList := (readList_eq_singleton_iff.mp (parse_eq_ok.mp h)).1

/-- **A compound that goes on with a qualifier** is read as the compound with that condition, if it is read. -/
theorem parse_add {text word : String} (hc : parse text = .ok ⟨[.compound compound]⟩)
    (hlast : ∀ c ∈ text.toList.getLast?, Text.isBlank c = false) (hq : q.Wording word.toList) {selector : Selector}
    (h : parse (text ++ word) = .ok selector) : selector = ⟨[.compound (compound.add q)]⟩ := by
  have hpiece := piece_of_parse hc
  generalize htext : text.toList = cs at hpiece
  obtain @⟨front, core, behind, hfront, hcore, hbehind⟩ := hpiece
  obtain rfl : behind = [] := by
    rcases List.eq_nil_or_concat behind with hnil | ⟨blanks, c, rfl⟩
    · exact hnil
    · -- a blank at the end would be the last character
      rw [List.concat_eq_append, ← List.append_assoc] at htext
      have hblank := hbehind c (by simp)
      rw [hlast c (by rw [htext, List.getLast?_concat]; rfl)] at hblank
      cases hblank
  cases hcore with
  | compound hword =>
    have hwhole := Complex.Piece.mk hfront (.compound (hword.add hq)) Text.allBlank_nil
    have hread := parse_eq_ok.mp h
    rw [String.toList_append, htext, List.append_nil, List.append_assoc] at hread
    rw [List.append_nil] at hwhole
    cases selector
    exact congrArg Selector.mk (readList_of_readable hwhole.reads hread)

/-- **Every qualifier of a compound counts, but one that a later one replaces.** A text that is read as one compound, and
does not end in a blank, goes on with a qualifier, and is still read. In every tree that can be built, what it matches then
fulfils the qualifier, and every other condition of the compound but the one whose place the qualifier takes. If it
replaces none, these are exactly the elements that the compound matched and that fulfil the qualifier. -/
theorem matches_add {text word : String} (hc : parse text = .ok ⟨[.compound compound]⟩)
    (hlast : ∀ c ∈ text.toList.getLast?, Text.isBlank c = false) (hq : q.Wording word.toList) {selector : Selector}
    (h : parse (text ++ word) = .ok selector) (hgrown : arena.Grown) (x : Nat) :
    (selector.isMatch arena x = true ↔ (compound.without q).Fits arena x ∧ q.Holds arena x) ∧
      (compound.Keeps q → (selector.isMatch arena x = true ↔
        Selector.isMatch ⟨[.compound compound]⟩ arena x = true ∧ q.Holds arena x)) := by
  have hmatch (c : Compound) : Selector.isMatch ⟨[.compound c]⟩ arena x = true ↔ c.Fits arena x := by
    rw [← Compound.isMatch_iff (.of_grown hgrown), Selector.isMatch, List.any_cons, List.any_nil, Bool.or_false]
    rfl
  rw [parse_add hc hlast hq h, hmatch, hmatch]
  exact ⟨Compound.fits_add, Compound.fits_add_of_keeps⟩

/-- A list of three items, the first and the last of them marked. -/
def markedItems : Arena :=
  let marked := (Content.ofTag "li").addClass "item"
  .ofSpec (.node (.ofTag "ul") [.node marked [], .node (.ofTag "li") [], .node marked []])

/-- Marked items. -/
def item : Compound := { tag := some "li", classes := ["item"] }

/-- The first and the last item are matched, and only the last one if its position is asked for as well. -/
theorem matches_add_item :
    parse "li.item" = .ok ⟨[.compound item]⟩ ∧ item.Keeps (.position 3) ∧
      parse ("li.item" ++ ":nth-of-type(3)") = .ok ⟨[.compound (item.add (.position 3))]⟩ ∧
      [1, 2, 3].filter (Selector.isMatch ⟨[.compound item]⟩ markedItems) = [1, 3] ∧
      Selector.isMatch ⟨[.compound (item.add (.position 3))]⟩ markedItems 3 = true ∧
      ∀ x, Selector.isMatch ⟨[.compound (item.add (.position 3))]⟩ markedItems x = true ↔
        Selector.isMatch ⟨[.compound item]⟩ markedItems x = true ∧ markedItems.IsNthOfType x 3 := by
  have hitem : parse "li.item" = .ok ⟨[.compound item]⟩ := by decide +kernel
  have hthird : parse ("li.item" ++ ":nth-of-type(3)") = .ok ⟨[.compound (item.add (.position 3))]⟩ := by decide +kernel
  have hword : (Qualifier.position 3).Wording ":nth-of-type(3)".toList :=
    @Qualifier.Wording.position ['3'] 3 (by decide) (by decide +kernel)
  have hkeeps : item.Keeps (.position 3) := fun old hold => nomatch hold
  have hlast : ∀ c ∈ "li.item".toList.getLast?, Text.isBlank c = false := by
    intro c hc
    cases hc
    decide
  refine ⟨hitem, hkeeps, hthird, by decide +kernel, by decide +kernel, ?_⟩
  intro x
  exact (matches_add hitem hlast hword hthird (.ofSpec _) x).2 hkeeps

/-- An element with one identifier. -/
def namedItem : Arena :=
  .ofSpec (.node (.ofTag "ul") [.node ((Content.ofTag "li").setAttribute "id" (some "b")) []])

/-- **An identifier that is written later takes the place of the one before**: a compound with both matches an element
that has the second one only, and that the compound did not match before. -/
theorem matches_replaced :
    parse "#a" = .ok ⟨[.compound { id := some "a" }]⟩ ∧ (Qualifier.id "b").Wording "#b".toList ∧
      parse ("#a" ++ "#b") = .ok ⟨[.compound { id := some "b" }]⟩ ∧ namedItem.Grown ∧
      Selector.isMatch ⟨[.compound { id := some "b" }]⟩ namedItem 1 = true ∧
      Selector.isMatch ⟨[.compound { id := some "a" }]⟩ namedItem 1 = false := by
  have hname : IsName ['b'] := ⟨by decide, List.all_eq_true.mp (by decide +kernel)⟩
  exact ⟨by decide +kernel, .id hname, by decide +kernel, .ofSpec _, by decide +kernel, by decide +kernel⟩

end Databind.Selector
