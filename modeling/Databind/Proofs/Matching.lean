import Databind.Proofs.Placement

/-!
# `Proofs.Matching` — what a selector matches

A chain of compounds matches an element exactly if there is a chain of elements for it: one element for each compound,
which fulfils its conditions, the last one being the element itself, and each the parent of the next, or somewhere above
it, as the combinator between them asks. The matcher goes from right to left and tries every ancestor, so it does not
matter that the nearest one that fits need not have the rest of the chain above it.

## Main definitions

* `Selector.Compound.Fits` — an element fulfils the conditions of a compound, each spelled out.
* `Selector.Combinator.Relates` — two elements stand as a combinator asks.
* `Selector.Complex.Chained` — a chain of elements for a chain of compounds.
-/

namespace Databind

namespace Selector

/-! ## One element -/

/-- **An element fulfils every condition of a compound.** -/
structure Compound.Fits (compound : Compound) (arena : Arena) (x : Nat) : Prop where
  tag : ∀ tag, compound.tag = some tag → Arena.sameTag (arena.content x).tag tag = true
  id : ∀ id, compound.id = some id → (arena.content x).attribute? "id" = some id
  classes : ∀ name ∈ compound.classes, name ∈ Text.words (((arena.content x).attribute? "class").getD "")
  attributes : ∀ name expected, (name, expected) ∈ compound.attributes →
    ∃ value, (arena.content x).attribute? name = some value ∧ ∀ v, expected = some v → value = v
  position : ∀ n, compound.position = some n → arena.IsNthOfType x n

section Compound

variable {c : Content} {compound : Compound} {arena : Arena} {x : Nat}

theorem Compound.tagHolds_iff :
    compound.tagHolds c = true ↔ ∀ tag, compound.tag = some tag → Arena.sameTag c.tag tag = true := by
  rw [tagHolds, Option.all_eq_true]

theorem Compound.idHolds_iff :
    compound.idHolds c = true ↔ ∀ id, compound.id = some id → c.attribute? "id" = some id := by
  rw [idHolds, Option.all_eq_true]
  apply forall₂_congr
  intro id _
  exact beq_iff_eq

theorem Compound.classesHold_iff :
    compound.classesHold c = true ↔ ∀ name ∈ compound.classes, name ∈ Text.words ((c.attribute? "class").getD "") := by
  rw [classesHold, List.all_eq_true]
  apply forall₂_congr
  intro name _
  exact List.contains_iff_mem

theorem Compound.attributeHolds_iff {name : String} {expected : Option String} :
    attributeHolds c (name, expected) = true ↔
      ∃ value, c.attribute? name = some value ∧ ∀ v, expected = some v → value = v := by
  unfold attributeHolds
  cases hvalue : c.attribute? name with
  | none => simp
  | some value =>
    simp only [Option.some.injEq, exists_eq_left', Option.all_eq_true, beq_iff_eq]

/-- **The matcher of one element checks every condition.** -/
theorem Compound.isMatch_iff (h : arena.Linked) : compound.isMatch arena x = true ↔ compound.Fits arena x := by
  have hattributes : compound.attributes.all (attributeHolds (arena.content x)) = true ↔
      ∀ name expected, (name, expected) ∈ compound.attributes →
        ∃ value, (arena.content x).attribute? name = some value ∧ ∀ v, expected = some v → value = v := by
    rw [List.all_eq_true, Prod.forall]
    refine forall₂_congr fun name expected => imp_congr_right fun _ => ?_
    exact attributeHolds_iff
  have hposition : compound.positionHolds arena x = true ↔ ∀ n, compound.position = some n → arena.IsNthOfType x n := by
    rw [positionHolds, Option.all_eq_true]
    apply forall₂_congr
    intro n _
    rw [beq_iff_eq, h.positionOfType_eq_some_iff]
  simp only [isMatch, Bool.and_eq_true, tagHolds_iff, idHolds_iff, classesHold_iff, hattributes, hposition]
  constructor
  · rintro ⟨⟨⟨⟨htag, hid⟩, hclasses⟩, hattributes⟩, hposition⟩
    exact ⟨htag, hid, hclasses, hattributes, hposition⟩
  · intro hfits
    exact ⟨⟨⟨⟨hfits.tag, hfits.id⟩, hfits.classes⟩, hfits.attributes⟩, hfits.position⟩

end Compound

/-! ## Chains -/

/-- **Two elements stand as a combinator asks**: the upper one is the parent of the lower one, or somewhere above. -/
def Combinator.Relates (arena : Arena) (upper lower : Nat) : Combinator → Prop
  | .child => arena.parent? lower = some upper
  | .descendant => arena.Below lower upper

namespace Complex

/-- The compounds of a chain, from left to right. -/
def compounds : Complex → List Compound
  | .compound c => [c]
  | .join left _ right => left.compounds ++ [right]

/-- The combinators of a chain, from left to right. -/
def combinators : Complex → List Combinator
  | .compound _ => []
  | .join left combinator _ => left.combinators ++ [combinator]

/-- A chain has one compound more than combinators. -/
theorem length_compounds (complex : Complex) : complex.compounds.length = complex.combinators.length + 1 := by
  induction complex with
  | compound c => rfl
  | join left combinator right ih => simp [compounds, combinators, ih]

/-- **A chain of elements for a chain of compounds**: each fulfils the compound in its place, and each stands to the next
as the combinator between them asks. -/
structure Chained (complex : Complex) (arena : Arena) (nodes : List Nat) : Prop where
  fits : List.Forall₂ (fun compound x => compound.Fits arena x) complex.compounds nodes
  relates : ∀ i combinator upper lower, complex.combinators[i]? = some combinator → nodes[i]? = some upper →
    nodes[i + 1]? = some lower → combinator.Relates arena upper lower

variable {complex left : Complex} {combinator : Combinator} {right : Compound} {arena : Arena} {x : Nat}
  {nodes : List Nat}

theorem Chained.length (h : complex.Chained arena nodes) : nodes.length = complex.combinators.length + 1 := by
  rw [← length_compounds, h.fits.length_eq]

/-- A chain of one element. -/
theorem chained_compound {c : Compound} :
    (Complex.compound c).Chained arena nodes ↔ ∃ x, nodes = [x] ∧ c.Fits arena x := by
  constructor
  · intro h
    have hfits := h.fits
    rw [compounds, List.forall₂_cons_left_iff] at hfits
    obtain ⟨x, rest, hx, hrest, rfl⟩ := hfits
    rw [List.forall₂_nil_left_iff] at hrest
    exact ⟨x, by rw [hrest], hx⟩
  · rintro ⟨x, rfl, hx⟩
    refine ⟨.cons hx .nil, ?_⟩
    intro i combinator upper lower hcombinator
    simp [combinators] at hcombinator

/-- A list that is related to one with an element at its end has such an element itself. -/
theorem forall₂_concat_left_iff {α β : Type} {R : α → β → Prop} {xs : List α} {a : α} {ys : List β} :
    List.Forall₂ R (xs ++ [a]) ys ↔ ∃ ys' b, ys = ys' ++ [b] ∧ List.Forall₂ R xs ys' ∧ R a b := by
  rw [← List.forall₂_reverse_iff, List.reverse_append, List.reverse_singleton, List.singleton_append,
    List.forall₂_cons_left_iff]
  constructor
  · rintro ⟨b, rest, hb, hrest, heq⟩
    refine ⟨rest.reverse, b, ?_, ?_, hb⟩
    · rw [← List.reverse_reverse ys, heq, List.reverse_cons]
    · rw [← List.forall₂_reverse_iff, List.reverse_reverse]
      exact hrest
  · rintro ⟨ys', b, rfl, hrest, hb⟩
    exact ⟨b, ys'.reverse, hb, List.forall₂_reverse_iff.mpr hrest, by simp⟩

/-- **A longer chain of elements** ends in one that fulfils the last compound, and that stands to the last element of a
chain for the rest as the combinator asks. -/
theorem chained_join : (Complex.join left combinator right).Chained arena nodes ↔
    ∃ above p x, nodes = above ++ [x] ∧ above.getLast? = some p ∧ left.Chained arena above ∧
      combinator.Relates arena p x ∧ right.Fits arena x := by
  constructor
  · intro h
    obtain ⟨above, x, rfl, hfits, hx⟩ := forall₂_concat_left_iff.mp h.fits
    have hlength : above.length = left.combinators.length + 1 := by rw [← length_compounds, hfits.length_eq]
    obtain ⟨p, hp⟩ : ∃ p, above[left.combinators.length]? = some p := ⟨_, List.getElem?_eq_getElem (by omega)⟩
    have hlast : above.getLast? = some p := by
      rw [List.getLast?_eq_getElem?, hlength, Nat.add_sub_cancel]
      exact hp
    refine ⟨above, p, x, rfl, hlast, ⟨hfits, ?_⟩, ?_, hx⟩
    · intro i combinator' upper lower hcombinator hupper hlower
      have hi := (List.getElem?_eq_some_iff.mp hcombinator).1
      refine h.relates i combinator' upper lower ?_ ?_ ?_
      · rw [combinators, List.getElem?_append_left hi, hcombinator]
      · rw [List.getElem?_append_left (by omega), hupper]
      · rw [List.getElem?_append_left (by omega), hlower]
    · refine h.relates left.combinators.length combinator p x ?_ ?_ ?_
      · rw [combinators, List.getElem?_append_right (Nat.le_refl _), Nat.sub_self]
        rfl
      · rw [List.getElem?_append_left (by omega), hp]
      · rw [List.getElem?_append_right (by omega), hlength, Nat.sub_self]
        rfl
  · rintro ⟨above, p, x, rfl, hp, habove, hrelates, hx⟩
    have hlength := habove.length
    refine ⟨forall₂_concat_left_iff.mpr ⟨above, x, rfl, habove.fits, hx⟩, ?_⟩
    intro i combinator' upper lower hcombinator hupper hlower
    rw [combinators] at hcombinator
    by_cases hi : i < left.combinators.length
    · -- both elements are in the chain above
      rw [List.getElem?_append_left hi] at hcombinator
      rw [List.getElem?_append_left (by omega)] at hupper hlower
      exact habove.relates i combinator' upper lower hcombinator hupper hlower
    · have hlast : i = left.combinators.length := by
        have hbound := (List.getElem?_eq_some_iff.mp hcombinator).1
        rw [List.length_append, List.length_singleton] at hbound
        omega
      subst hlast
      rw [List.getElem?_append_right (Nat.le_refl _), Nat.sub_self] at hcombinator
      rw [List.getLast?_eq_getElem?, hlength, Nat.add_sub_cancel] at hp
      rw [List.getElem?_append_left (by omega), hp] at hupper
      rw [List.getElem?_append_right (by omega), hlength, Nat.sub_self] at hlower
      cases hcombinator
      cases hupper
      cases hlower
      exact hrelates

/-- A longer chain matches an element that fulfils its last compound, if what is left matches the parent, or any element
above. -/
theorem isMatch_join (h : arena.Linked) : (Complex.join left combinator right).isMatch arena x = true ↔
    right.Fits arena x ∧ ∃ p, combinator.Relates arena p x ∧ left.isMatch arena p = true := by
  cases combinator with
  | child => simp only [isMatch, Bool.and_eq_true, Compound.isMatch_iff h, Option.any_eq_true, Combinator.Relates]
  | descendant =>
    simp only [isMatch, Bool.and_eq_true, Compound.isMatch_iff h, List.any_eq_true, Combinator.Relates,
      h.mem_ancestors_iff]

/-- **A chain matches an element exactly if there is a chain of elements that ends in it.** -/
theorem isMatch_iff (h : arena.Linked) (complex : Complex) (x : Nat) :
    complex.isMatch arena x = true ↔ ∃ nodes, nodes.getLast? = some x ∧ complex.Chained arena nodes := by
  induction complex generalizing x with
  | compound c =>
    rw [isMatch, Compound.isMatch_iff h]
    constructor
    · intro hfits
      exact ⟨[x], rfl, chained_compound.mpr ⟨x, rfl, hfits⟩⟩
    · rintro ⟨nodes, hlast, hchained⟩
      obtain ⟨y, rfl, hfits⟩ := chained_compound.mp hchained
      cases hlast
      exact hfits
  | join left combinator right ih =>
    rw [isMatch_join h]
    constructor
    · rintro ⟨hfits, p, hrelates, hleft⟩
      obtain ⟨above, hlast, hchained⟩ := (ih p).mp hleft
      refine ⟨above ++ [x], List.getLast?_concat, ?_⟩
      exact chained_join.mpr ⟨above, p, x, rfl, hlast, hchained, hrelates, hfits⟩
    · rintro ⟨nodes, hlast, hchained⟩
      obtain ⟨above, p, y, rfl, hp, habove, hrelates, hfits⟩ := chained_join.mp hchained
      rw [List.getLast?_concat] at hlast
      cases hlast
      exact ⟨hfits, p, hrelates, (ih p).mpr ⟨above, hp, habove⟩⟩

end Complex

end Selector

open Selector

/-- **Matching is complete.** In every tree that can be built, a chain matches an element exactly if there are elements
for its compounds, the last one being the element, such that each fulfils every condition of its compound and each is the
parent of the next, or somewhere above it, as the combinator between them asks. A selector matches an element exactly if
one of its alternatives does. -/
theorem Selector.matches_iff_chain {arena : Arena} (h : arena.Grown) (selector : Selector) (x : Nat) :
    (∀ complex : Selector.Complex, complex.compounds.length = complex.combinators.length + 1 ∧
      (complex.isMatch arena x = true ↔ ∃ nodes : List Nat, nodes.getLast? = some x ∧
        List.Forall₂ (fun compound y => compound.Fits arena y) complex.compounds nodes ∧
        ∀ i combinator upper lower, complex.combinators[i]? = some combinator → nodes[i]? = some upper →
          nodes[i + 1]? = some lower → combinator.Relates arena upper lower)) ∧
    (selector.isMatch arena x = true ↔
      ∃ complex ∈ selector.alternatives, complex.isMatch arena x = true) := by
  refine ⟨fun complex => ⟨complex.length_compounds, ?_⟩, ?_⟩
  · rw [Complex.isMatch_iff (.of_grown h)]
    constructor
    · rintro ⟨nodes, hlast, hfits, hrelates⟩
      exact ⟨nodes, hlast, hfits, hrelates⟩
    · rintro ⟨nodes, hlast, hfits, hrelates⟩
      exact ⟨nodes, hlast, hfits, hrelates⟩
  · exact List.any_eq_true

/-- A list in an item of a list, with a link in it. -/
def nestedList : Arena :=
  .ofSpec (.node (.ofTag "ul") [.node (.ofTag "li") [.node (.ofTag "ol") [.node (.ofTag "li") [.node (.ofTag "a") []]]]])

/-- A link somewhere in an item of an unordered list. -/
def itemLink : Selector.Complex :=
  .join (.join (.compound { tag := some "ul" }) .child { tag := some "li" }) .descendant { tag := some "a" }

/-- The nearest item is none of an unordered list, so the chain goes through the one farther up. -/
theorem matches_iff_chain_nested :
    parse "ul > li a" = .ok ⟨[itemLink]⟩ ∧ nestedList.parent? 4 = some 3 ∧
      (Selector.Complex.join (.compound { tag := some "ul" }) .child { tag := some "li" }).isMatch nestedList 3 = false ∧
      Selector.isMatch ⟨[itemLink]⟩ nestedList 4 = true ∧
      ∃ nodes : List Nat, nodes.getLast? = some 4 ∧
        List.Forall₂ (fun compound y => compound.Fits nestedList y) itemLink.compounds nodes ∧
        ∀ i combinator upper lower, itemLink.combinators[i]? = some combinator → nodes[i]? = some upper →
          nodes[i + 1]? = some lower → combinator.Relates nestedList upper lower := by
  have hmatch : itemLink.isMatch nestedList 4 = true := by decide +kernel
  obtain ⟨hchains, halternatives⟩ := matches_iff_chain (.ofSpec _) ⟨[itemLink]⟩ 4
  refine ⟨by decide +kernel, by decide +kernel, by decide +kernel, ?_, (hchains itemLink).2.mp hmatch⟩
  exact halternatives.mpr ⟨itemLink, List.mem_singleton_self _, hmatch⟩

end Databind
