import Databind.Proofs.Grafting

/-!
# `Proofs.Siblings` — positions among siblings

The children of an element that have a tag are numbered from one, in their order and without a gap. The position of each
is computed from its own tag, and not from the tag that is asked for, so this rests on tags being compared alike from all
sides. A number belongs to one of them at most, so a tag with a position selects one child of an element at most.

An element that is appended gets the next number, and its elder siblings keep theirs. They keep them through any changes
of the tree, as long as their parent keeps its children.

## Main definitions

* `Arena.childrenOfType` — the children of an element that have a tag.
* `Arena.Keeps` — an element has the children that it had, and perhaps more behind them.
* `Arena.Later` — what becomes of a tree while an element keeps its children.
-/

namespace Databind

open Selector

namespace Arena

variable {arena arena' : Arena} {p q x y i : Nat} {tag : String}

/-! ## Tags -/

theorem sameTag_iff {a b : String} : sameTag a b = true ↔ a.toList.map Char.toLower = b.toList.map Char.toLower :=
  beq_iff_eq

/-- Of two tags that are the same, each is as good as the other to compare with. -/
theorem sameTag_congr {a b : String} (h : sameTag a b = true) (c : String) : sameTag c a = sameTag c b := by
  unfold sameTag
  rw [sameTag_iff.mp h]

/-- **The children of an element that have a tag**, in order. -/
def childrenOfType (arena : Arena) (p : Nat) (tag : String) : List Nat :=
  (arena.children p).filter fun y => sameTag (arena.content y).tag tag

/-! ## Positions -/

/-- In a list without repetition an element stands where it is found. -/
theorem idxOf?_eq_some_iff_getElem? {xs : List Nat} (h : xs.Nodup) : xs.idxOf? x = some i ↔ xs[i]? = some x := by
  rw [List.idxOf?_eq_some_iff, List.getElem?_eq_some_iff]
  constructor
  · rintro ⟨hi, hx, -⟩
    exact ⟨hi, hx⟩
  · rintro ⟨hi, hx⟩
    refine ⟨hi, hx, fun j hj hjx => ?_⟩
    have heq := h.getElem_inj_iff.mp (hjx.trans hx.symm)
    omega

namespace Linked

theorem mem_childrenOfType (h : arena.Linked) :
    x ∈ arena.childrenOfType p tag ↔ arena.parent? x = some p ∧ sameTag (arena.content x).tag tag = true := by
  rw [childrenOfType, List.mem_filter, h.mem_children_iff]

theorem nodup_childrenOfType (h : arena.Linked) (p : Nat) (tag : String) : (arena.childrenOfType p tag).Nodup :=
  (h.nodup_children p).filter _

/-- The position of a child is its place among the children of a tag, whichever spelling of its own tag that is. -/
theorem positionOfType_of_mem (h : arena.Linked) (hx : x ∈ arena.childrenOfType p tag) :
    arena.positionOfType x = ((arena.childrenOfType p tag).idxOf? x).map (· + 1) := by
  obtain ⟨hparent, htag⟩ := h.mem_childrenOfType.mp hx
  -- siblings are counted by the tag of the child itself, which picks the same ones
  have hsame : (fun y => sameTag (arena.content y).tag (arena.content x).tag) =
      fun y => sameTag (arena.content y).tag tag := funext fun y => sameTag_congr htag _
  rw [positionOfType, hparent]
  dsimp only
  rw [hsame]
  rfl

/-- **The child in a place among those of a tag** is the one that has that position. -/
theorem getElem?_childrenOfType (h : arena.Linked) :
    (arena.childrenOfType p tag)[i]? = some x ↔
      x ∈ arena.childrenOfType p tag ∧ arena.positionOfType x = some (i + 1) := by
  have hplace := idxOf?_eq_some_iff_getElem? (x := x) (i := i) (h.nodup_childrenOfType p tag)
  constructor
  · intro hx
    have hmem := List.mem_of_getElem? hx
    rw [h.positionOfType_of_mem hmem, hplace.mpr hx]
    exact ⟨hmem, rfl⟩
  · rintro ⟨hmem, hposition⟩
    rw [h.positionOfType_of_mem hmem] at hposition
    obtain ⟨j, hj, heq⟩ := Option.map_eq_some_iff.mp hposition
    obtain rfl : j = i := Nat.succ.inj heq
    exact hplace.mp hj

/-- **The children of a tag are numbered from one**, in order and without a gap. -/
theorem map_positionOfType (h : arena.Linked) (p : Nat) (tag : String) :
    (arena.childrenOfType p tag).map arena.positionOfType =
      (List.range (arena.childrenOfType p tag).length).map fun i => some (i + 1) := by
  refine List.ext_getElem (by simp) fun i hi _ => ?_
  rw [List.length_map] at hi
  rw [List.getElem_map, List.getElem_map, List.getElem_range]
  exact (h.getElem?_childrenOfType.mp (List.getElem?_eq_getElem hi)).2

/-- **No two children of a tag have the same position.** -/
theorem eq_of_positionOfType (h : arena.Linked) (hx : x ∈ arena.childrenOfType p tag)
    (hy : y ∈ arena.childrenOfType p tag) (heq : arena.positionOfType x = arena.positionOfType y) : x = y := by
  obtain ⟨i, hi⟩ := List.mem_iff_getElem?.mp hx
  have hposition := (h.getElem?_childrenOfType.mp hi).2
  have hyi := h.getElem?_childrenOfType.mpr ⟨hy, heq ▸ hposition⟩
  exact Option.some.inj (hi.symm.trans hyi)

end Linked

/-- An element below another has a parent that is below it too, or is it. -/
theorem below_iff_parent : arena.Below x y ↔ ∃ p, arena.parent? x = some p ∧ arena.Within p y := by
  unfold Below Within
  rw [Relation.TransGen.head'_iff]
  refine exists_congr fun p => and_congr_right fun _ => ?_
  rw [Relation.reflTransGen_iff_eq_or_transGen, @eq_comm _ y p]
  rfl

/-! ## Growth -/

mutual

/-- Inserting a description changes nothing of what was there. -/
theorem nodes_insert (arena : Arena) (parent : Option Nat) (spec : Spec) {x : Nat} (hx : x < arena.size) :
    (arena.insert parent spec).nodes[x]? = arena.nodes[x]? := by
  cases spec with
  | node content specs =>
    -- what is below the new element goes under it, and it is none of those that were there
    have hsize := size_push arena ⟨content, parent, []⟩
    rw [insert, nodes_insertAll _ arena.size specs (by omega) (Nat.ne_of_lt hx), Array.getElem?_push,
      if_neg (show x ≠ arena.nodes.size from Nat.ne_of_lt hx)]

/-- Inserting descriptions under an element changes nothing else of what was there. -/
theorem nodes_insertAll (arena : Arena) (parent : Nat) (specs : List Spec) {x : Nat} (hx : x < arena.size)
    (hne : x ≠ parent) : (arena.insertAll parent specs).nodes[x]? = arena.nodes[x]? := by
  cases specs with
  | nil => rw [insertAll]
  | cons spec rest =>
    have hwidens := (widens_insert arena (some parent) spec).1.size
    have hsize := size_addChild (arena.insert (some parent) spec) parent arena.size
    rw [insertAll, nodes_insertAll _ parent rest (by omega) hne, addChild, modify, Array.getElem?_modify,
      if_neg (Ne.symm hne)]
    exact nodes_insert arena (some parent) spec hx

end

theorem content_addChild (arena : Arena) (p c y : Nat) : (arena.addChild p c).content y = arena.content y :=
  arena.content_modify p y _ fun _ => rfl

theorem content_append (p : Nat) (spec : Spec) (hx : x < arena.size) :
    (arena.append p spec).content x = arena.content x := by
  rw [append, content_addChild, content, nodes_insert arena _ spec hx]
  rfl

/-- **An appended element comes last** among the children of its parent, and under no other element. -/
theorem children_append (hp : p < arena.size) (spec : Spec) (hq : q < arena.size) :
    (arena.append p spec).children q = if q = p then arena.children p ++ [arena.size] else arena.children q := by
  have hkept : ∀ {r}, r < arena.size → (arena.insert (some p) spec).children r = arena.children r := by
    intro r hr
    rw [children, nodes_insert arena _ spec hr]
    rfl
  have hsize := (widens_insert arena (some p) spec).1.size
  rw [append, children_addChild _ (by omega), hkept hp, hkept hq]

/-! ## Changes that leave positions -/

/-- **An element has the children that it had**, perhaps with more of them behind, and no tag was changed. -/
structure Keeps (p : Nat) (arena arena' : Arena) : Prop where
  size : arena.size ≤ arena'.size
  tag : ∀ x < arena.size, (arena'.content x).tag = (arena.content x).tag
  children : arena.children p <+: arena'.children p

/-- **What becomes of a tree while an element keeps its children**: descriptions are appended anywhere, elements change
what they hold apart from their tags, and other elements lose their children to text or markup. -/
inductive Later (p : Nat) (arena : Arena) : Arena → Prop
  | refl : Later p arena arena
  | append {later : Arena} (h : Later p arena later) {q : Nat} (hq : q < later.size) (spec : Spec) :
    Later p arena (later.append q spec)
  | edit {later : Arena} (h : Later p arena later) (x : Nat) {f : Content → Content} (hf : ∀ c, (f c).tag = c.tag) :
    Later p arena (later.edit x f)
  | setText {later : Arena} (h : Later p arena later) {x : Nat} (hx : x ≠ p) (text : String) :
    Later p arena (later.setText x text)
  | setHtml {later : Arena} (h : Later p arena later) {x : Nat} (hx : x ≠ p) (markup : String) :
    Later p arena (later.setHtml x markup)

namespace Keeps

theorem refl (p : Nat) (arena : Arena) : Keeps p arena arena := ⟨Nat.le_refl _, fun _ _ => rfl, List.prefix_rfl⟩

theorem trans {arena'' : Arena} (h : Keeps p arena arena') (h' : Keeps p arena' arena'') : Keeps p arena arena'' where
  size := Nat.le_trans h.size h'.size
  tag x hx := (h'.tag x (Nat.lt_of_lt_of_le hx h.size)).trans (h.tag x hx)
  children := h.children.trans h'.children

theorem append (p : Nat) (hq : q < arena.size) (spec : Spec) : Keeps p arena (arena.append q spec) where
  size := by
    rw [Arena.append, size_addChild]
    exact (widens_insert arena (some q) spec).1.size
  tag x hx := by rw [content_append q spec hx]
  children := by
    by_cases hp : p < arena.size
    · rw [children_append hq spec hp]
      split
      · next heq => exact heq ▸ List.prefix_append _ _
      · exact List.prefix_rfl
    · -- what is not there has no children
      rw [Arena.children, Array.getElem?_eq_none (Nat.le_of_not_lt hp)]
      exact List.nil_prefix

theorem edit (p x : Nat) {f : Content → Content} (hf : ∀ c, (f c).tag = c.tag) : Keeps p arena (arena.edit x f) where
  size := Nat.le_of_eq (arena.size_modify x _).symm
  tag y _ := by
    rw [content_edit]
    split
    · next h => rw [hf, h.1]
    · rfl
  children := ⟨[], by rw [List.append_nil, children_edit]⟩

theorem detachChildren (hx : x ≠ p) : Keeps p arena (arena.detachChildren x) where
  size := Nat.le_of_eq (arena.detachChildren_eq x x).2.symm
  tag y _ := by rw [(arena.detachChildren_eq x y).1]
  children := ⟨[], by rw [List.append_nil, children_detachChildren, if_neg (Ne.symm hx)]⟩

/-- Another element may lose its children to something else that it holds. -/
theorem replace (hx : x ≠ p) {f : Content → Content} (hf : ∀ c, (f c).tag = c.tag) :
    Keeps p arena ((arena.detachChildren x).edit x f) :=
  (detachChildren hx).trans (.edit p x hf)

/-- **A child keeps its position** as long as its parent keeps its children. -/
theorem positionOfType (h : Keeps p arena arena') (hlinked : arena.Linked) (hlinked' : arena'.Linked)
    (hx : x ∈ arena.children p) : arena'.positionOfType x = arena.positionOfType x := by
  have hthere : ∀ y ∈ arena.children p, (arena'.content y).tag = (arena.content y).tag := fun y hy =>
    h.tag y (lt_size_of_parent? (hlinked.mem_children_iff.mp hy))
  -- only the siblings before a child count, and new ones come behind
  obtain ⟨before, after, hchildren⟩ := List.append_of_mem hx
  obtain ⟨behind, hbehind⟩ := h.children
  have hchildren' : arena'.children p = before ++ x :: (after ++ behind) := by
    rw [← hbehind, hchildren, List.append_assoc, List.cons_append]
  have hbefore : (before.filter fun y => sameTag (arena'.content y).tag (arena'.content x).tag) =
      before.filter fun y => sameTag (arena.content y).tag (arena.content x).tag := by
    refine List.filter_congr fun y hy => ?_
    rw [hthere x hx, hthere y (hchildren ▸ List.mem_append_left _ hy)]
  have hparent' : arena'.parent? x = some p := hlinked'.mem_children_iff.mp (h.children.subset hx)
  rw [hlinked'.positionOfType_of_split hparent' hchildren',
    hlinked.positionOfType_of_split (hlinked.mem_children_iff.mp hx) hchildren, hbefore]

end Keeps

/-- In a later tree the element has the children that it had, and links agree if they did. -/
theorem Later.keeps (h : arena.Later p arena') (hlinked : arena.Linked) : Keeps p arena arena' ∧ arena'.Linked := by
  induction h with
  | refl => exact ⟨.refl p arena, hlinked⟩
  | append _ hq spec ih => exact ⟨ih.1.trans (.append p hq spec), ih.2.append hq spec⟩
  | edit _ x hf ih => exact ⟨ih.1.trans (.edit p x hf), ih.2.edit x _⟩
  | setText _ hx text ih => exact ⟨ih.1.trans (.replace hx fun _ => rfl), (ih.2.detachChildren _).edit _ _⟩
  | setHtml _ hx markup ih => exact ⟨ih.1.trans (.replace hx fun _ => rfl), (ih.2.detachChildren _).edit _ _⟩

end Arena

/-! ## A tag with a position -/

namespace Selector

variable {arena : Arena} {p x y n : Nat} {name : List Char} {complex : Complex}

/-- **A tag with a position** is read as the two conditions. -/
theorem parse_tag_position (hname : IsName name) (hn : 0 < n ∧ n < Text.sizeBound) :
    parse (String.ofList (name ++ positionText n)) =
      .ok ⟨[.compound { tag := some (String.ofList name), position := some n }]⟩ := by
  have hword : Compound.Wording { tag := some (String.ofList name), position := some n } (name ++ positionText n) :=
    (Compound.Wording.tag hname).add (wording_position hn)
  have hpiece := Complex.Piece.mk Text.allBlank_nil (.compound hword) Text.allBlank_nil
  have halike : Alike (name ++ positionText n) [] := (Alike.of_plain hname.plain).append (alike_positionText n)
  rw [parse_eq_ok, String.toList_ofList, readList_eq_singleton_iff]
  refine ⟨by simpa using hpiece, ?_⟩
  rw [halike 0]
  rfl

/-- It matches the elements with that tag in that position. -/
theorem isMatch_tag_position {tag : String} :
    (Complex.compound { tag := some tag, position := some n }).isMatch arena x = true ↔
      Arena.sameTag (arena.content x).tag tag = true ∧ arena.positionOfType x = some n := by
  simp [Complex.isMatch, Compound.isMatch, Compound.tagHolds, Compound.idHolds, Compound.classesHold,
    Compound.positionHolds]

/-- **A chain that asks for a tag and a position at its end** matches one child of an element at most. -/
theorem Complex.eq_of_isMatch (h : arena.Linked) {tag : String} (htag : complex.last.tag = some tag)
    (hposition : complex.last.position = some n) (hx : complex.isMatch arena x = true)
    (hy : complex.isMatch arena y = true) (hpx : arena.parent? x = some p) (hpy : arena.parent? y = some p) : x = y := by
  have hmem : ∀ {z}, complex.isMatch arena z = true → arena.parent? z = some p → z ∈ arena.childrenOfType p tag := by
    intro z hz hpz
    have hfits := (Compound.isMatch_iff h).mp (Complex.isMatch_last hz)
    exact h.mem_childrenOfType.mpr ⟨hpz, hfits.tag tag htag⟩
  have heq : arena.positionOfType x = arena.positionOfType y :=
    (Complex.positionOfType_eq hposition hx).trans (Complex.positionOfType_eq hposition hy).symm
  exact h.eq_of_positionOfType (hmem hx hpx) (hmem hy hpy) heq

end Selector

namespace Store

variable (s : Store) {tree : Nat} {arena : Arena} {x i : Nat} {name : List Char}

/-- A text of one alternative selects what it matches below the root. -/
theorem mem_select_of_parse (hlinked : arena.Linked) (harena : s.arena tree = arena) (root : Nat) {text : String}
    {complex : Selector.Complex} (hparse : Selector.parse text = .ok ⟨[complex]⟩) :
    x ∈ (s.select ⟨tree, root⟩ text).2 ↔ arena.Below x root ∧ complex.isMatch arena x = true := by
  rw [s.select_of_parse ⟨tree, root⟩ hparse, harena, (hlinked.answers_matching root _).mem, Selector.isMatch,
    List.any_cons, List.any_nil, Bool.or_false]

/-- **A tag with a position selects one child of each element that has enough of that tag**: the one in that place. -/
theorem mem_select_tag_position (hlinked : arena.Linked) (harena : s.arena tree = arena) (root : Nat)
    (hname : IsName name) (hi : i + 1 < Text.sizeBound) :
    x ∈ (s.select ⟨tree, root⟩ (String.ofList (name ++ positionText (i + 1)))).2 ↔
      ∃ p, arena.Within p root ∧ (arena.childrenOfType p (String.ofList name))[i]? = some x := by
  rw [s.mem_select_of_parse hlinked harena root (parse_tag_position hname ⟨Nat.succ_pos i, hi⟩), isMatch_tag_position,
    Arena.below_iff_parent, ← exists_and_right]
  refine exists_congr fun p => ?_
  rw [hlinked.getElem?_childrenOfType, hlinked.mem_childrenOfType, and_assoc, and_left_comm, and_assoc]

end Store

/-- **Positions among siblings are exact.** In every tree that can be built, the children of an element that have a tag, up
to the case of ASCII letters, have the positions from one on, in their order, each of them once. A tag with a position
selects below a root, under each element, the child in that place if there is one. Any chain that asks for a tag and a
position at its end selects one child of an element at most. An appended element comes last, and its elder siblings keep
their positions, through every change that leaves their parent its children. -/
theorem Store.siblings_numbered (s : Store) (tree : Nat) {arena : Arena} (hgrown : arena.Grown)
    (harena : s.arena tree = arena) (p : Nat) (tag : String) :
    ((arena.childrenOfType p tag).map arena.positionOfType =
        (List.range (arena.childrenOfType p tag).length).map fun i => some (i + 1)) ∧
      (∀ i < (arena.childrenOfType p tag).length,
        ∃! x, x ∈ arena.childrenOfType p tag ∧ arena.positionOfType x = some (i + 1)) ∧
      (∀ root name i, IsName name → i + 1 < Text.sizeBound → ∀ x,
        x ∈ (s.select ⟨tree, root⟩ (String.ofList (name ++ positionText (i + 1)))).2 ↔
          ∃ q, arena.Within q root ∧ (arena.childrenOfType q (String.ofList name))[i]? = some x) ∧
      (∀ root text complex n, Selector.parse text = .ok ⟨[complex]⟩ → complex.last.tag = some tag →
        complex.last.position = some n → ∀ x ∈ (s.select ⟨tree, root⟩ text).2, ∀ y ∈ (s.select ⟨tree, root⟩ text).2,
          arena.parent? x = some p → arena.parent? y = some p → x = y) ∧
      (p < arena.size → ∀ spec, (arena.append p spec).children p = arena.children p ++ [arena.size]) ∧
      ∀ later, arena.Later p later → ∀ x ∈ arena.children p,
        x ∈ later.children p ∧ later.positionOfType x = arena.positionOfType x := by
  have hlinked := Arena.Linked.of_grown hgrown
  refine ⟨hlinked.map_positionOfType p tag, ?_, ?_, ?_, ?_, ?_⟩
  · intro i hi
    have hx := hlinked.getElem?_childrenOfType.mp (List.getElem?_eq_getElem hi)
    exact ⟨_, hx, fun y hy => hlinked.eq_of_positionOfType hy.1 hx.1 (hy.2.trans hx.2.symm)⟩
  · intro root name i hname hi x
    exact s.mem_select_tag_position hlinked harena root hname hi
  · intro root text complex n hparse htag hposition x hx y hy hpx hpy
    have hmatch : ∀ z ∈ (s.select ⟨tree, root⟩ text).2, complex.isMatch arena z = true := fun z hz =>
      ((s.mem_select_of_parse hlinked harena root hparse).mp hz).2
    exact Selector.Complex.eq_of_isMatch hlinked htag hposition (hmatch x hx) (hmatch y hy) hpx hpy
  · intro hp spec
    rw [Arena.children_append hp spec hp, if_pos rfl]
  · intro later hlater x hx
    obtain ⟨hkeeps, hlinked'⟩ := hlater.keeps hlinked
    exact ⟨hkeeps.children.subset hx, hkeeps.positionOfType hlinked hlinked' hx⟩

/-- A list that lost its first item to a text, and then got items in both spellings with a paragraph between them, the
last of them with an item below it. -/
def refilledList : Arena :=
  let item := Spec.node (.ofTag "li") []
  let page := (Arena.ofSpec (.node (.ofTag "ul") [item])).setText 0 ""
  ((page.append 0 item).append 0 (.node (.ofTag "p") [])).append 0 (.node (.ofTag "LI") [item])

theorem refilledList_grown : refilledList.Grown :=
  .append (.append (.append (.setText (.ofSpec _) 0 "") (by decide +kernel) _) (by decide +kernel) _) (by decide +kernel) _

/-- The lost item counts no more and the paragraph does not count. The items keep their positions when another one comes
and the last one loses the item below it. -/
theorem siblings_numbered_refilled :
    let later := (refilledList.append 0 (.node (.ofTag "li") [])).setText 4 ""
    refilledList.childrenOfType 0 "Li" = [2, 4] ∧ [2, 4].map refilledList.positionOfType = [some 1, some 2] ∧
      (∃! x, x ∈ [2, 4] ∧ refilledList.positionOfType x = some 2) ∧
      (∃ q, refilledList.Within q 0 ∧ (refilledList.childrenOfType q "li")[1]? = some 4) ∧
      (∀ x ∈ [2, 5], ∀ y ∈ [2, 5], refilledList.parent? x = some 0 → refilledList.parent? y = some 0 → x = y) ∧
      (refilledList.append 0 (.node (.ofTag "li") [])).children 0 = [2, 3, 4, 6] ∧
      later.positionOfType 4 = refilledList.positionOfType 4 := by
  intro later
  let s : Store := { Store.empty with trees := #[.ofArena refilledList] }
  have hitems : refilledList.childrenOfType 0 "Li" = [2, 4] := by decide +kernel
  have hchildren : refilledList.children 0 = [2, 3, 4] := by decide +kernel
  have hname : IsName "li".toList := ⟨by decide, List.all_eq_true.mp (by decide +kernel)⟩
  have hsecond : (s.select ⟨0, 0⟩ (String.ofList ("li".toList ++ positionText 2))).2 = [4] := by
    rw [s.select_of_parse ⟨0, 0⟩ (parse_tag_position hname (by decide))]
    decide +kernel
  have hfirst : Selector.parse "ul li:nth-of-type(1)" = .ok ⟨[.join (.compound { tag := some "ul" }) .descendant
      { tag := some "li", position := some 1 }]⟩ := by decide +kernel
  have hfirsts : (s.select ⟨0, 0⟩ "ul li:nth-of-type(1)").2 = [2, 5] := by
    rw [s.select_of_parse ⟨0, 0⟩ hfirst]
    decide +kernel
  have hlater : refilledList.Later 0 later :=
    .setText (.append .refl (by decide +kernel) _) (by decide) ""
  obtain ⟨hnumbers, honce, -, -, hgrowth, hkept⟩ := s.siblings_numbered 0 refilledList_grown rfl 0 "Li"
  obtain ⟨-, -, hselect, hchain, -⟩ := s.siblings_numbered 0 refilledList_grown rfl 0 "li"
  rw [hitems] at hnumbers honce
  refine ⟨hitems, hnumbers, honce 1 (by decide), ?_, ?_, ?_, (hkept later hlater 4 (by rw [hchildren]; decide)).2⟩
  · exact (hselect 0 "li".toList 1 hname (by decide) 4).mp (hsecond ▸ List.mem_singleton_self 4)
  · have hunique := hchain 0 _ _ 1 hfirst rfl rfl
    rwa [hfirsts] at hunique
  · rw [hgrowth (by decide +kernel), hchildren]
    decide +kernel

end Databind
