import Databind.Proofs.Position
import Databind.Proofs.Printing
import Databind.Proofs.Run
import Databind.Proofs.Shown
import Mathlib.Logic.Relation

/-!
# `Proofs.Narrowing` — members of an expanded collection on their elements

A member of a collection is bound on what its parent narrowed to the member's position selects. Elements of one type below
one parent have different positions, so two members meet on an element only where an item of the one is nested in an item
of the other, or where a list of alternatives leaves some of them apart from the position.

## Main definitions

* `Arena.Below` — an element is somewhere below another.
* `Selector.Accepted` — a text that is empty or a selector.
* `Selector.IsItem` — the element of a position, as its parent selects it.
* `Selector.Shares` — how two members may share an element.
-/

namespace Databind

open Selector

namespace Arena

variable {arena : Arena} {x y z : Nat}

/-- One element is somewhere below another. -/
def Below (arena : Arena) : Nat → Nat → Prop := Relation.TransGen fun x y => arena.parent? x = some y

/-- **Of two elements above a third, one is below the other** or both are the same. -/
theorem Below.connected (hy : arena.Below x y) (hz : arena.Below x z) : y = z ∨ arena.Below y z ∨ arena.Below z y := by
  have hunique : Relator.RightUnique fun x y => arena.parent? x = some y := fun _ _ _ h h' =>
    Option.some.inj (h.symm.trans h')
  obtain h | h := Relation.ReflTransGen.total_of_right_unique hunique hy.to_reflTransGen hz.to_reflTransGen
  · obtain heq | hbelow := Relation.reflTransGen_iff_eq_or_transGen.mp h
    · exact .inl heq.symm
    · exact .inr (.inl hbelow)
  · obtain heq | hbelow := Relation.reflTransGen_iff_eq_or_transGen.mp h
    · exact .inl heq
    · exact .inr (.inr hbelow)

theorem below_of_mem_ancestors (h : y ∈ arena.ancestors x) : arena.Below x y := by
  fun_induction ancestors arena x with
  | case1 x p hparent hlt ih =>
    have hup : arena.Below x p := .single hparent
    obtain rfl | h := List.mem_cons.mp h
    · exact hup
    · exact hup.trans (ih h)
  | case2 => exact absurd h List.not_mem_nil
  | case3 => exact absurd h List.not_mem_nil

end Arena

namespace Selector

variable {arena : Arena} {x : Nat}

theorem Complex.isMatch_last {complex : Complex} (h : complex.isMatch arena x = true) :
    complex.last.isMatch arena x = true := by
  cases complex with
  | compound c => exact h
  | join left combinator right =>
    cases combinator <;> simp only [Complex.isMatch, Bool.and_eq_true] at h <;> exact h.1

/-- An element that a chain with a position at its end matches is in that position. -/
theorem Complex.positionOfType_eq {complex : Complex} {n : Nat} (hposition : complex.last.position = some n)
    (h : complex.isMatch arena x = true) : arena.positionOfType x = some n := by
  have hlast := Complex.isMatch_last h
  simp only [Compound.isMatch, Compound.positionHolds, hposition, Bool.and_eq_true, Option.all_some, beq_iff_eq] at hlast
  exact hlast.2

theorem Complex.exists_of_join {left : Complex} {combinator : Combinator} {right : Compound}
    (h : (Complex.join left combinator right).isMatch arena x = true) :
    ∃ y, arena.Below x y ∧ left.isMatch arena y = true := by
  cases combinator with
  | child =>
    simp only [Complex.isMatch, Bool.and_eq_true] at h
    cases hparent : arena.parent? x with
    | none => simp [hparent] at h
    | some y =>
      rw [hparent, Option.any_some] at h
      exact ⟨y, .single hparent, h.2⟩
  | descendant =>
    simp only [Complex.isMatch, Bool.and_eq_true, List.any_eq_true] at h
    obtain ⟨-, y, hmem, hy⟩ := h
    exact ⟨y, Arena.below_of_mem_ancestors hmem, hy⟩

/-- **An element that a longer chain matches** is below one that the chain matches. -/
theorem Complex.exists_of_extend {head : Complex} {links : List (Combinator × Compound)}
    (h : (head.extend links).isMatch arena x = true) :
    ∃ y, (if links = [] then x = y else arena.Below x y) ∧ head.isMatch arena y = true := by
  induction links generalizing head with
  | nil => exact ⟨x, by simp, h⟩
  | cons link links ih =>
    obtain ⟨y, hxy, hy⟩ := ih h
    obtain ⟨z, hyz, hz⟩ := Complex.exists_of_join hy
    refine ⟨z, ?_, hz⟩
    rw [if_neg (by simp)]
    split at hxy
    · exact hxy ▸ hyz
    · exact hxy.trans hyz

/-! ## Texts -/

/-- A text is read as the alternatives that it lists. -/
theorem parse_eq_ok {text : String} {selector : Selector} :
    parse text = .ok selector ↔ readList text.toList = .ok selector.alternatives := by
  unfold parse readList
  cases readAlternatives (splitAlternatives 0 text.toList) with
  | error fault => simp
  | ok alternatives =>
    simp only [Except.ok.injEq]
    exact ⟨fun h => h ▸ rfl, fun h => by cases selector; exact congrArg Selector.mk h⟩

/-- A text that is empty or a selector. -/
def Accepted (text : String) : Prop := text = "" ∨ ∃ selector, parse text = .ok selector

instance (text : String) : Decidable (Accepted text) :=
  decidable_of_iff (text = "" ∨ (parse text).isOk = true) <| by
    unfold Accepted
    cases parse text <;> simp [Except.isOk, Except.toBool]

/-- The alternatives of a text, none if it is no selector. -/
def alternativesOf (text : String) : List Complex := (parse text).toOption.elim [] (·.alternatives)

theorem lists_of_accepted {text : String} (h : Accepted text) : Lists text.toList (alternativesOf text) := by
  obtain rfl | ⟨selector, hparse⟩ := h
  · exact .inl ⟨rfl, by decide +kernel⟩
  · right
    rw [alternativesOf, hparse]
    exact parse_eq_ok.mp hparse

/-- A narrowed selector is the text of its parts, trimmed. -/
theorem selector_narrowed (d : Descriptor) (parent : String) (n : Nat) :
    (d.narrowed parent n).selector =
      String.ofList (Text.trimChars (parent.toList ++ (positionText n ++ ' ' :: d.selector.toList))) := by
  have htext : (parent ++ ":nth-of-type(" ++ toString n ++ ") " ++ d.selector).toList =
      parent.toList ++ (positionText n ++ ' ' :: d.selector.toList) := by
    simp [positionText, Number.digits]
  simp only [Descriptor.narrowed, Text.trim, htext]

theorem readList_narrowed {d : Descriptor} {parent : String} {n : Nat} {complexes : List Complex} :
    readList (d.narrowed parent n).selector.toList = .ok complexes ↔
      readList (parent.toList ++ (positionText n ++ ' ' :: d.selector.toList)) = .ok complexes := by
  rw [selector_narrowed, String.toList_ofList, readList_trimChars]

/-- A narrowed selector is not blank. -/
theorem isBlankText_narrowed (d : Descriptor) (parent : String) (n : Nat) :
    Text.isBlankText (d.narrowed parent n).selector = false := by
  obtain ⟨front, behind, hfront, hbehind, -, heq⟩ :=
    Text.exists_snug (parent.toList ++ (positionText n ++ ' ' :: d.selector.toList))
  have hcolon : ':' ∈ parent.toList ++ (positionText n ++ ' ' :: d.selector.toList) := by simp [positionText]
  have hblank : ∀ {cs : List Char}, Text.AllBlank cs → ':' ∉ cs := fun h hmem => absurd (h _ hmem) (by decide)
  rw [heq] at hcolon
  simp only [List.mem_append, hblank hfront, hblank hbehind, false_or, or_false] at hcolon
  rw [selector_narrowed]
  exact Expression.isBlankText_of_mem hcolon (by decide)

/-! ## What a narrowed selector matches -/

/-- **An item of a parent**: the element in a position, as the parent narrowed to that position selects it. -/
structure IsItem (arena : Arena) (parent : String) (n y : Nat) : Prop where
  position : arena.positionOfType y = some n
  selected : ∃ selector, parse (Descriptor.narrowed ⟨"", "", none⟩ parent n).selector = .ok selector ∧
    selector.isMatch arena y = true

section Match

variable {arena : Arena} {parent : String} {d : Descriptor} {n x : Nat}

/-- **What a narrowed selector matches**: an item of its parent, or what is below one, unless the parent or the inner
selector lists alternatives that stay apart from the position. -/
theorem exists_item_of_isMatch (hparent : Accepted parent) (hinner : Accepted d.selector) {selector : Selector}
    (h : parse (Text.trim (d.narrowed parent n).selector) = .ok selector) (hx : selector.isMatch arena x = true) :
    (∃ c ∈ (alternativesOf parent).dropLast, c.isMatch arena x = true) ∨
      (∃ c ∈ (alternativesOf d.selector).tail, c.isMatch arena x = true) ∨
      ∃ y, IsItem arena parent n y ∧ if d.selector = "" then x = y else arena.Below x y := by
  have hread := parse_eq_ok.mp h
  rw [Text.trim, String.toList_ofList, readList_trimChars, readList_narrowed] at hread
  obtain ⟨head, links, hposition, hlinks, halternatives, halone⟩ :=
    alternatives_of_narrowed (lists_of_accepted hparent) (lists_of_accepted hinner) hread
  obtain ⟨c, hc, hmatch⟩ := List.any_eq_true.mp hx
  rw [halternatives, List.mem_append, List.mem_cons] at hc
  obtain hc | rfl | hc := hc
  · exact .inl ⟨c, hc, hmatch⟩
  · obtain ⟨y, hxy, hy⟩ := Complex.exists_of_extend hmatch
    have hempty : links = [] ↔ d.selector = "" := hlinks.trans String.toList_eq_nil_iff
    simp only [hempty] at hxy
    have hitem : IsItem arena parent n y :=
      { position := Complex.positionOfType_eq hposition hy
        selected := ⟨⟨(alternativesOf parent).dropLast ++ [head]⟩, parse_eq_ok.mpr (readList_narrowed.mpr halone),
          List.any_eq_true.mpr ⟨head, by simp, hy⟩⟩ }
    exact .inr (.inr ⟨y, hitem, hxy⟩)
  · exact .inr (.inl ⟨c, hc, hmatch⟩)

/-- The elements that a narrowed selector selects are matched by it, and the tree is there. -/
theorem exists_parse_of_mem_select {s : Store} {scope : Scope} (h : x ∈ (s.select scope (d.narrowed parent n).selector).2) :
    scope.tree < s.trees.size ∧ ∃ selector, parse (Text.trim (d.narrowed parent n).selector) = .ok selector ∧
      selector.isMatch (s.arena scope.tree) x = true := by
  unfold Store.select at h
  rw [if_neg (by simp [isBlankText_narrowed])] at h
  cases hparse : parse (Text.trim (d.narrowed parent n).selector) with
  | error e => rw [hparse] at h; exact absurd h List.not_mem_nil
  | ok selector =>
    rw [hparse] at h
    obtain ⟨hdescendant, hmatch⟩ := List.mem_filter.mp h
    refine ⟨?_, selector, rfl, hmatch⟩
    by_contra hout
    simp only [Store.arena, s.tree_of_size_le hout] at hdescendant
    unfold Arena.descendants at hdescendant
    rw [Arena.withDescendants] at hdescendant
    exact absurd hdescendant List.not_mem_nil

end Match

/-- **How two members may share an element.** An alternative of the parent or of an inner selector stays apart from the
position, or an item of one position is nested in an item of the other. -/
inductive Shares (arena : Arena) (parent : String) (d d' : Descriptor) (i j x : Nat) : Prop
  | outer (c : Complex) (hc : c ∈ (alternativesOf parent).dropLast) (hx : c.isMatch arena x = true)
  | inner (c : Complex) (hc : c ∈ (alternativesOf d.selector).tail) (hx : c.isMatch arena x = true)
  | inner' (c : Complex) (hc : c ∈ (alternativesOf d'.selector).tail) (hx : c.isMatch arena x = true)
  | nested (y z : Nat) (hy : IsItem arena parent i y) (hz : IsItem arena parent j z) (hne : y ≠ z)
      (hnested : arena.Below y z ∨ arena.Below z y) (hxy : if d.selector = "" then x = y else arena.Below x y)
      (hxz : if d'.selector = "" then x = z else arena.Below x z)

end Selector

/-! ## Members of an expanded collection -/

namespace Store

variable {s : Store} {k : Nat}

/-- **Members do not overwrite each other**, unless they share an element. -/
theorem spares_of_narrowed {parent : String} {d d' : Descriptor} (hparent : Selector.Accepted parent)
    (hd : Selector.Accepted d.selector) (hd' : Selector.Accepted d'.selector) {i j : Nat} (hij : i ≠ j) {b : Binding}
    (hb : b.key.selector = (d.narrowed parent i).selector) {x : Nat}
    (hx : x ∈ (s.select (s.binder k).scope (d'.narrowed parent j).selector).2) :
    let tree := (s.binder k).scope.tree
    (x ∉ (s.select (s.binder k).scope b.key.selector).2 ∧
      ((s.render k b).arena tree).content x = (s.arena tree).content x) ∨
    Selector.Shares (s.arena tree) parent d d' i j x := by
  intro tree
  obtain ⟨htree, selector', hparse', hmatch'⟩ := Selector.exists_parse_of_mem_select hx
  by_cases hboth : x ∈ (s.select (s.binder k).scope b.key.selector).2
  swap
  · exact .inl ⟨hboth, content_render htree hboth⟩
  right
  rw [hb] at hboth
  obtain ⟨-, selector, hparse, hmatch⟩ := Selector.exists_parse_of_mem_select hboth
  obtain ⟨c, hc, hx⟩ | ⟨c, hc, hx⟩ | ⟨y, hy, hxy⟩ := Selector.exists_item_of_isMatch hparent hd hparse hmatch
  · exact .outer c hc hx
  · exact .inner c hc hx
  obtain ⟨c, hc, hx⟩ | ⟨c, hc, hx⟩ | ⟨z, hz, hxz⟩ := Selector.exists_item_of_isMatch hparent hd' hparse' hmatch'
  · exact .outer c hc hx
  · exact .inner' c hc hx
  -- one element is in one position only
  have hne : y ≠ z := by
    rintro rfl
    exact hij (Option.some.inj (hy.position.symm.trans hz.position))
  refine .nested y z hy hz hne ?_ hxy hxz
  split at hxy
  · subst hxy
    split at hxz
    · exact absurd hxz hne
    · exact .inl hxz
  · split at hxz
    · subst hxz
      exact .inr hxy
    · exact (hxy.connected hxz).resolve_left hne

end Store

namespace Machine

/-- The target of a whole item. -/
def whole : Descriptor := ⟨"", "", none⟩

/-- A list of two items, and a binder on it. -/
def itemized : List Turn :=
  [.command (.act (.tree (.make "tree" (.node (.ofTag "ul") [.node (.ofTag "li") [], .node (.ofTag "li") []])))), .step,
    .command (.act (.record (.make "record" [("a", .null)]))), .step,
    .command (.act (.binder (.make "binder" "tree" (.given none none none)))), .step]

/-- A binding that shows the field on the first of the two. -/
def onFirst : Binding := ⟨⟨1⟩, ⟨(whole.narrowed "li" 1).selector, ""⟩, .field "a", false, none, none, none⟩

/-- It does not write to the second. -/
theorem spares_of_narrowed_itemized :
    ∃ m, initial.walk? itemized = some m ∧
      2 ∈ (m.store.select (m.store.binder 0).scope (whole.narrowed "li" 2).selector).2 ∧
      2 ∉ (m.store.select (m.store.binder 0).scope onFirst.key.selector).2 ∧
      ((m.store.render 0 onFirst).arena (m.store.binder 0).scope.tree).content 2 =
        (m.store.arena (m.store.binder 0).scope.tree).content 2 := by
  have hrun : (initial.walk? itemized).map (fun m =>
      (m.store.select (m.store.binder 0).scope (whole.narrowed "li" 2).selector).2) = some [2] := by decide +kernel
  have hparent : Selector.Accepted "li" ∧ Selector.Accepted whole.selector := by decide +kernel
  have hnone : (Selector.alternativesOf "li").dropLast = [] ∧ (Selector.alternativesOf whole.selector).tail = [] := by
    decide +kernel
  obtain ⟨m, h, hselected⟩ := Option.map_eq_some_iff.mp hrun
  have hx : 2 ∈ (m.store.select (m.store.binder 0).scope (whole.narrowed "li" 2).selector).2 := by
    rw [hselected]
    exact List.mem_singleton.mpr rfl
  have hapart := Store.spares_of_narrowed (b := onFirst) hparent.1 hparent.2 hparent.2 (show 1 ≠ 2 by decide) rfl hx
  obtain hspared | hshares := hapart
  · exact ⟨m, h, hx, hspared⟩
  · cases hshares with
    | outer c hc => exact absurd (hnone.1 ▸ hc) List.not_mem_nil
    | inner c hc => exact absurd (hnone.2 ▸ hc) List.not_mem_nil
    | inner' c hc => exact absurd (hnone.2 ▸ hc) List.not_mem_nil
    | nested y z _ _ hne _ hxy hxz =>
      rw [if_pos (show whole.selector = "" from rfl)] at hxy hxz
      exact absurd (hxy.symm.trans hxz) hne

/-- An item that holds two items, the second of them with a link, two records, and a binder that shows each record on
the links of its item. -/
def nesting : List Turn :=
  [.command (.act (.tree (.make "tree" (.node (.ofTag "ul")
      [.node (.ofTag "li") [.node (.ofTag "li") [], .node (.ofTag "li") [.node (.ofTag "a") []]]])))), .step,
    .command (.act (.record (.make "first" [("name", .string "one")]))), .step,
    .command (.act (.record (.make "second" [("name", .string "two")]))), .step,
    .command (.act (.collection (.make "all" ["first", "second"]))), .step,
    .command (.act (.binder (.make "binder" "tree" (.given none none none)))), .step,
    .command (.act (.binder (.attach "binder" (.collection "all")
      (.entries [("li", .nested [("a", .property (.field "name"))])]) none))), .step]

/-- The target of the links of an item. -/
def links : Descriptor := ⟨"a", "", none⟩

/-- **Nested items share what the inner one holds**: the link is selected for both members, and shows the second one only,
though both are bound. -/
theorem nested_items_share :
    Selector.Accepted "li" ∧ Selector.Accepted links.selector ∧ ∃ m, initial.walk? nesting = some m ∧
      (m.store.binder 0).keys =
        [(⟨1⟩, ⟨(links.narrowed "li" 1).selector, ""⟩), (⟨2⟩, ⟨(links.narrowed "li" 2).selector, ""⟩)] ∧
      (m.store.select (m.store.binder 0).scope (links.narrowed "li" 1).selector).2 = [4] ∧
      (m.store.select (m.store.binder 0).scope (links.narrowed "li" 2).selector).2 = [4] ∧
      (m.store.fields ⟨1⟩).get "name" = .string "one" ∧ ((m.store.arena 0).content 4).text = "two" := by
  have hrun : (initial.walk? nesting).map (fun m =>
      ((m.store.binder 0).keys, (m.store.select (m.store.binder 0).scope (links.narrowed "li" 1).selector).2,
        (m.store.select (m.store.binder 0).scope (links.narrowed "li" 2).selector).2, (m.store.fields ⟨1⟩).get "name",
        ((m.store.arena 0).content 4).text)) =
      some ([(⟨1⟩, ⟨(links.narrowed "li" 1).selector, ""⟩), (⟨2⟩, ⟨(links.narrowed "li" 2).selector, ""⟩)], [4], [4],
        .string "one", "two") := by decide +kernel
  obtain ⟨m, h, heq⟩ := Option.map_eq_some_iff.mp hrun
  simp only [Prod.mk.injEq] at heq
  exact ⟨by decide +kernel, by decide +kernel, m, h, heq⟩

end Machine

end Databind
