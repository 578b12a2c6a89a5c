import Databind.Proofs.Qualifying
import Databind.Proofs.Sweep

/-!
# `Proofs.Grafting` — what a narrowed selector selects

A member of a collection is bound on a text that is pasted together: the selector of the collection, a position behind it,
and a selector to go on with below the element in that position. The parts keep their meaning. The position is one more
condition on the last compound in front of it, and what comes behind keeps its own combinators. A bracket that stays open
in front hides commas from the reader, but those of one alternative are hidden already.

## Main definitions

* `Selector.Sole` — a text that is empty or one alternative.
* `Selector.Complex.descend` — a chain that goes on below another.
* `Selector.IsPlace` — the element in a position of a selector.
* `Selector.FoundFrom` — what a selector finds below the places that it starts from.
-/

namespace Databind

namespace Selector

variable {arena : Arena} {x n : Nat} {head inner complex : Complex} {outer goal : Option Complex} {q : Qualifier}
  {front gap word : List Char} {text parent : String}

/-- **A text that is empty or one alternative.** -/
inductive Sole (text : String) : Option Complex → Prop
  | empty (h : text = "") : Sole text none
  | one {complex : Complex} (h : parse text = .ok ⟨[complex]⟩) : Sole text (some complex)

/-! ## Texts -/

/-- A chain that goes on below another: its first compound is looked for below what the other one matches. -/
def Complex.descend (head : Complex) : Complex → Complex
  | .compound c => .join head .descendant c
  | .join left combinator right => .join (head.descend left) combinator right

/-- The chain of a place: what it matches is in a position, and the chain in front, if there is one, matches it. -/
def Complex.place (n : Nat) : Option Complex → Complex
  | none => .compound (Compound.add {} (.position n))
  | some complex => complex.withLast (complex.last.add (.position n))

/-- The chain that goes on below another, if there is something to go on with. -/
def Complex.graft (head : Complex) : Option Complex → Complex
  | none => head
  | some inner => head.descend inner

/-- A chain that goes on below another is written behind it and a gap. -/
theorem Complex.Wording.descend (hhead : head.Wording front) (hgap : Combinator.descendant.Gap gap)
    (hinner : inner.Wording word) : (head.descend inner).Wording (front ++ gap ++ word) := by
  induction hinner with
  | compound hc => exact .join hhead hgap hc
  | @join left combinator right before gap' word hleft hgap' hright ih =>
    have hwhole := Complex.Wording.join ih hgap' hright
    show ((head.descend left).join combinator right).Wording (front ++ gap ++ (before ++ gap' ++ word))
    simpa only [List.append_assoc] using hwhole

/-- A qualifier behind a chain belongs to its last compound. -/
theorem Complex.Wording.add (h : complex.Wording front) (hq : q.Wording word) :
    (complex.withLast (complex.last.add q)).Wording (front ++ word) := by
  cases h with
  | compound hc => exact .compound (hc.add hq)
  | join hleft hgap hright =>
    rw [List.append_assoc]
    exact .join hleft hgap (hright.add hq)

/-- A text without blanks at its ends that is one alternative is a wording of it. -/
theorem wording_of_parse (h : parse text = .ok ⟨[complex]⟩) (htrim : Text.trim text = text) :
    complex.Wording text.toList := by
  have hcore : Text.trimChars text.toList = text.toList := by
    conv_rhs => rw [← htrim, Text.trim, String.toList_ofList]
  have hpiece := piece_of_parse h
  generalize text.toList = cs at hcore hpiece
  obtain ⟨hfront, hword, hbehind⟩ := hpiece
  rw [Text.trimChars_of_snug hfront hword.snug hbehind] at hcore
  exact hcore ▸ hword

/-- **A position behind a text of one alternative**, or behind nothing, is written as the chain of a place. -/
theorem Sole.wording_place (h : Sole parent outer) (htrim : Text.trim parent = parent)
    (hn : 0 < n ∧ n < Text.sizeBound) : (Complex.place n outer).Wording (parent.toList ++ positionText n) := by
  have hposition := wording_position hn
  cases h with
  | empty hnil =>
    rw [hnil]
    exact .compound (.qualifier hposition)
  | one hparse => exact (wording_of_parse hparse htrim).add hposition

/-- What comes behind a chain and a blank goes on below the chain. -/
theorem Sole.piece_graft (h : Sole text goal) (hhead : head.Wording front) :
    (head.graft goal).Piece (front ++ ' ' :: text.toList) := by
  have hblank : Text.AllBlank [' '] := by decide
  cases h with
  | empty hnil =>
    rw [hnil]
    exact .mk Text.allBlank_nil hhead hblank
  | @one inner hparse =>
    -- blanks at the beginning of the text are part of the gap
    have hpiece := piece_of_parse hparse
    generalize text.toList = cs at hpiece
    obtain @⟨before, word, behind, hbefore, hword, hbehind⟩ := hpiece
    have hgap : Combinator.descendant.Gap (' ' :: before) := .descendant (hblank.append hbefore) (List.cons_ne_nil _ _)
    have hwhole := Complex.Piece.mk Text.allBlank_nil (hhead.descend hgap hword) hbehind
    show (head.descend inner).Piece (front ++ ' ' :: (before ++ word ++ behind))
    simpa using hwhole

/-- No comma separates a text of one alternative. -/
theorem Sole.isSome_openBehind (h : Sole text goal) : (openBehind? 0 text.toList).isSome := by
  cases h with
  | empty hnil =>
    rw [hnil]
    rfl
  | one hparse => exact (readList_eq_singleton_iff.mp (parse_eq_ok.mp hparse)).2

/-- **A narrowed selector is one alternative**: the chain of the place, and below it the chain of its own text. -/
theorem parse_narrowed {d : Descriptor} (hparent : Sole parent outer) (htrim : Text.trim parent = parent)
    (hinner : Sole d.selector goal) (hn : 0 < n ∧ n < Text.sizeBound) :
    parse (d.narrowed parent n).selector = .ok ⟨[(Complex.place n outer).graft goal]⟩ := by
  rw [parse_eq_ok, readList_narrowed, readList_eq_singleton_iff]
  constructor
  · rw [← List.append_assoc]
    exact hinner.piece_graft (hparent.wording_place htrim hn)
  · have hposition : (openBehind? 0 (positionText n)).isSome := by
      rw [alike_positionText n 0]
      rfl
    have hblank : (openBehind? 0 [' ']).isSome := by decide
    have hseam := isSome_openBehind_append hposition (isSome_openBehind_append hblank hinner.isSome_openBehind)
    exact isSome_openBehind_append hparent.isSome_openBehind hseam

/-! ## Elements -/

/-- **A chain with one condition more on its last compound** matches what it matched before and what fulfils the
condition. -/
theorem Complex.isMatch_add (h : arena.Linked) (hkeeps : complex.last.Keeps q) :
    (complex.withLast (complex.last.add q)).isMatch arena x = true ↔
      complex.isMatch arena x = true ∧ q.Holds arena x := by
  cases complex with
  | compound c =>
    have hkeeps : c.Keeps q := hkeeps
    show (c.add q).isMatch arena x = true ↔ c.isMatch arena x = true ∧ q.Holds arena x
    rw [Compound.isMatch_iff h, Compound.isMatch_iff h, Compound.fits_add_of_keeps hkeeps]
  | join left combinator right =>
    have hkeeps : right.Keeps q := hkeeps
    show (Complex.join left combinator (right.add q)).isMatch arena x = true ↔ _
    rw [isMatch_join h, isMatch_join h, Compound.fits_add_of_keeps hkeeps, and_right_comm]

/-- **A chain that goes on below another** matches the end of a chain of elements that begins below what the other one
matches. -/
theorem Complex.isMatch_descend (h : arena.Linked) :
    (head.descend inner).isMatch arena x = true ↔ ∃ nodes first y, inner.Chained arena nodes ∧ nodes.head? = some first ∧
      nodes.getLast? = some x ∧ arena.Below first y ∧ head.isMatch arena y = true := by
  -- the induction takes the last compound off, until the first one meets the other chain
  induction inner generalizing x with
  | compound c =>
    rw [descend, isMatch_join h]
    constructor
    · rintro ⟨hfits, y, hbelow, hhead⟩
      exact ⟨[x], x, y, chained_compound.mpr ⟨x, rfl, hfits⟩, rfl, rfl, hbelow, hhead⟩
    · rintro ⟨nodes, first, y, hchained, hfirst, hlast, hbelow, hhead⟩
      obtain ⟨z, rfl, hfits⟩ := chained_compound.mp hchained
      cases hfirst
      cases hlast
      exact ⟨hfits, y, hbelow, hhead⟩
  | join left combinator right ih =>
    -- an element at the end of a chain does not change where the chain begins
    have hbegin : ∀ {above : List Nat}, left.Chained arena above → ∀ z, (above ++ [z]).head? = above.head? := by
      intro above habove z
      refine List.head?_append_of_ne_nil above ?_
      rintro rfl
      have hlength := habove.length
      rw [List.length_nil] at hlength
      omega
    rw [descend, isMatch_join h]
    constructor
    · rintro ⟨hfits, p, hrelates, hleft⟩
      obtain ⟨above, first, y, habove, hfirst, hlast, hbelow, hhead⟩ := ih.mp hleft
      have hchained := chained_join.mpr ⟨above, p, x, rfl, hlast, habove, hrelates, hfits⟩
      exact ⟨above ++ [x], first, y, hchained, (hbegin habove x).trans hfirst, List.getLast?_concat, hbelow, hhead⟩
    · rintro ⟨nodes, first, y, hchained, hfirst, hlast, hbelow, hhead⟩
      obtain ⟨above, p, z, rfl, hp, habove, hrelates, hfits⟩ := chained_join.mp hchained
      rw [List.getLast?_concat] at hlast
      cases hlast
      rw [hbegin habove] at hfirst
      exact ⟨hfits, p, hrelates, ih.mpr ⟨above, first, y, habove, hfirst, hp, hbelow, hhead⟩⟩

/-- **A place**: the element in a position, if the selector of the places matches it. Without a selector every element in
that position is one. -/
structure IsPlace (arena : Arena) (outer : Option Complex) (n y : Nat) : Prop where
  outer : ∀ chain, outer = some chain → chain.isMatch arena y = true
  position : arena.IsNthOfType y n

theorem isMatch_place (h : arena.Linked) (hlast : ∀ chain, outer = some chain → chain.last.position = none) :
    (Complex.place n outer).isMatch arena x = true ↔ IsPlace arena outer n x := by
  cases outer with
  | none =>
    have hplain : ({} : Compound).Fits arena x := ⟨nofun, nofun, nofun, nofun, nofun⟩
    have hkeeps : ({} : Compound).Keeps (.position n) := nofun
    show (Compound.add {} (.position n)).isMatch arena x = true ↔ _
    rw [Compound.isMatch_iff h, Compound.fits_add_of_keeps hkeeps]
    constructor
    · rintro ⟨-, hposition⟩
      exact ⟨nofun, hposition⟩
    · rintro ⟨-, hposition⟩
      exact ⟨hplain, hposition⟩
  | some chain =>
    have hkeeps : chain.last.Keeps (.position n) := by
      intro old hold
      rw [hlast chain rfl] at hold
      cases hold
    show (chain.withLast (chain.last.add (.position n))).isMatch arena x = true ↔ _
    rw [Complex.isMatch_add h hkeeps]
    constructor
    · rintro ⟨hchain, hposition⟩
      refine ⟨?_, hposition⟩
      intro chain' heq
      cases heq
      exact hchain
    · rintro ⟨hchain, hposition⟩
      exact ⟨hchain chain rfl, hposition⟩

/-- **What a selector finds from places on**: the ends of the chains of elements that begin somewhere below a place, or the
places themselves if there is no selector. -/
def FoundFrom (arena : Arena) (place : Nat → Prop) (x : Nat) : Option Complex → Prop
  | none => place x
  | some chain => ∃ nodes first y, chain.Chained arena nodes ∧ nodes.head? = some first ∧ nodes.getLast? = some x ∧
      arena.Below first y ∧ place y

theorem isMatch_graft (h : arena.Linked) :
    (head.graft goal).isMatch arena x = true ↔ FoundFrom arena (fun y => head.isMatch arena y = true) x goal := by
  cases goal with
  | none => exact Iff.rfl
  | some inner => exact Complex.isMatch_descend h

end Selector

/-- **A narrowed selector means what its parts mean.** Its parent is empty or one alternative without blanks at its ends and
without a position on its last compound, and its own text is empty or one alternative. Then the pasted text is a selector
for every position from one, up to the largest number that can be read. In every tree that can be built it selects, below
whichever root, the elements that its own text finds from the places on: the elements in that position that the parent
matches. -/
theorem Store.selected_of_narrowed (s : Store) {tree : Nat} {arena : Arena} (hgrown : arena.Grown)
    (harena : s.arena tree = arena) (d : Descriptor) {parent : String} {outer goal : Option Selector.Complex}
    (hparent : Selector.Sole parent outer) (htrim : Text.trim parent = parent)
    (hlast : ∀ chain, outer = some chain → chain.last.position = none) (hgoal : Selector.Sole d.selector goal) {n : Nat}
    (hn : 0 < n) (hbound : n < Text.sizeBound) (root : Nat) :
    (∃ selector, Selector.parse (d.narrowed parent n).selector = .ok selector) ∧
      ∀ x, x ∈ (s.select ⟨tree, root⟩ (d.narrowed parent n).selector).2 ↔
        arena.Below x root ∧ Selector.FoundFrom arena (Selector.IsPlace arena outer n) x goal := by
  have hlinked := Arena.Linked.of_grown hgrown
  have hparse := Selector.parse_narrowed hparent htrim hgoal ⟨hn, hbound⟩
  have hplace : (fun y => (Selector.Complex.place n outer).isMatch arena y = true) = Selector.IsPlace arena outer n := by
    funext y
    exact propext (Selector.isMatch_place hlinked hlast)
  refine ⟨⟨_, hparse⟩, ?_⟩
  intro x
  rw [s.select_of_parse ⟨tree, root⟩ hparse, harena, (hlinked.answers_matching root _).mem, ← hplace,
    ← Selector.isMatch_graft hlinked, Selector.isMatch, List.any_cons, List.any_nil, Bool.or_false]

/-- Two items of a list with an open bracket in its title, the second of them with a marked link. -/
def bracketedList : Arena :=
  .ofSpec (.node (.ofTag "main") [.node ((Content.ofTag "ul").setAttribute "title" (some "(")) [.node (.ofTag "li") [],
    .node (.ofTag "li") [.node (.ofTag "p") [.node ((Content.ofTag "a").setAttribute "rel" (some "b, c")) []]]]])

/-- The items of that list. -/
def bracketedItems : Selector.Complex :=
  .join (.compound { tag := some "ul", attributes := [("title", some "(")] }) .child { tag := some "li" }

/-- A link in a paragraph. -/
def markedLink : Selector.Complex :=
  .join (.compound { tag := some "p" }) .child { tag := some "a", attributes := [("rel", some "b, c")] }

/-- The target of such links. -/
def onMarkedLink : Descriptor := ⟨"p > a[rel=\"b, c\"]", "", none⟩

/-- The bracket in front stays open, and the comma behind it is no comma between alternatives anyway. -/
theorem Store.selected_of_narrowed_bracketed :
    Selector.parse "ul[title='('] > li" = .ok ⟨[bracketedItems]⟩ ∧
      Selector.parse onMarkedLink.selector = .ok ⟨[markedLink]⟩ ∧ bracketedItems.last.position = none ∧
      (onMarkedLink.narrowed "ul[title='('] > li" 2).selector =
        "ul[title='('] > li:nth-of-type(2) p > a[rel=\"b, c\"]" ∧
      bracketedList.Below 5 0 ∧
      Selector.FoundFrom bracketedList (Selector.IsPlace bracketedList (some bracketedItems) 2) 5 (some markedLink) := by
  let s : Store := { Store.empty with trees := #[.ofArena bracketedList] }
  have hitems : Selector.parse "ul[title='('] > li" = .ok ⟨[bracketedItems]⟩ := by decide +kernel
  have hlink : Selector.parse onMarkedLink.selector = .ok ⟨[markedLink]⟩ := by decide +kernel
  have hlast : ∀ chain, some bracketedItems = some chain → chain.last.position = none := by
    intro chain heq
    cases heq
    rfl
  have htext : (onMarkedLink.narrowed "ul[title='('] > li" 2).selector =
      "ul[title='('] > li:nth-of-type(2) p > a[rel=\"b, c\"]" := by decide +kernel
  have hfound : (s.select ⟨0, 0⟩ (onMarkedLink.narrowed "ul[title='('] > li" 2).selector).2 = [5] := by decide +kernel
  have hthere : s.arena 0 = bracketedList := rfl
  obtain ⟨-, hselected⟩ := s.selected_of_narrowed (.ofSpec _) hthere onMarkedLink (.one hitems) (by decide +kernel) hlast
    (.one hlink) (show 0 < 2 by decide) (by decide) 0
  have hfive : 5 ∈ (s.select ⟨0, 0⟩ (onMarkedLink.narrowed "ul[title='('] > li" 2).selector).2 := by
    rw [hfound]
    exact List.mem_singleton_self 5
  exact ⟨hitems, hlink, rfl, htext, (hselected 5).mp hfive⟩

end Databind
