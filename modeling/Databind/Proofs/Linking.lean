import Databind.Proofs.Growth
import Databind.Proofs.Shown

/-!
# `Proofs.Linking` — parents and children

A tree keeps each of its links twice: an element knows its parent, and a parent lists its children. Walks up follow the
first, walks down the second, so they agree only as long as both say the same. They do in every tree that grew from a
description: an element has a smaller parent, or none, and stands in the list of that parent once and in no other.

A new element is numbered before what is below it is inserted, and enters the list of its parent afterwards. In between
it is pending: `Arena.LinkedBut` says what holds apart from pending elements, and the recursion of `Arena.insert` carries
them.

## Main definitions

* `Arena.LinkedBut`, `Arena.Linked` — parents and children say the same.
* `Arena.Linked.of_grown` — they do, in every tree that can be built.
-/

namespace Databind

namespace Arena

/-- **Parents and children say the same, apart from elements that are not in the list of their parent yet.** -/
structure LinkedBut (arena : Arena) (pending : List Nat) : Prop where
  up : ∀ x p, arena.parent? x = some p → p < x
  down : ∀ p x, (arena.children p).count x = if arena.parent? x = some p ∧ x ∉ pending then 1 else 0

/-- **Parents and children say the same.** -/
abbrev Linked (arena : Arena) : Prop := arena.LinkedBut []

variable {arena : Arena} {x p : Nat} {pending : List Nat}

/-! ## Links after a change of one element -/

theorem parent?_of_size_le (h : arena.size ≤ x) : arena.parent? x = none := by
  unfold parent?
  rw [Array.getElem?_eq_none h]
  rfl

theorem lt_size_of_parent? (h : arena.parent? x = some p) : x < arena.size := by
  apply Nat.lt_of_not_le
  intro hle
  rw [parent?_of_size_le hle] at h
  cases h

/-- A change that leaves the parent of an element leaves all parents. -/
theorem parent?_modify (arena : Arena) (x y : Nat) (f : Node → Node) (hf : ∀ node, (f node).parent = node.parent) :
    (arena.modify x f).parent? y = arena.parent? y := by
  unfold parent? modify
  rw [Array.getElem?_modify]
  split
  · cases arena.nodes[y]? with
    | none => rfl
    | some node => exact hf node
  · rfl

/-- A change that leaves the children of an element leaves all children. -/
theorem children_modify (arena : Arena) (x y : Nat) (f : Node → Node)
    (hf : ∀ node, (f node).children = node.children) : (arena.modify x f).children y = arena.children y := by
  unfold children modify
  rw [Array.getElem?_modify]
  split
  · cases arena.nodes[y]? with
    | none => rfl
    | some node => simp [hf node]
  · rfl

theorem parent?_edit (arena : Arena) (x y : Nat) (f : Content → Content) :
    (arena.edit x f).parent? y = arena.parent? y := arena.parent?_modify x y _ fun _ => rfl

theorem children_edit (arena : Arena) (x y : Nat) (f : Content → Content) :
    (arena.edit x f).children y = arena.children y := arena.children_modify x y _ fun _ => rfl

/-- A child that is added comes last among the children of its parent. -/
theorem children_addChild (arena : Arena) {p : Nat} (hp : p < arena.size) (c q : Nat) :
    (arena.addChild p c).children q = if q = p then arena.children p ++ [c] else arena.children q := by
  unfold children addChild modify
  rw [Array.getElem?_modify]
  by_cases hq : p = q
  · subst hq
    rw [if_pos rfl, if_pos rfl, Array.getElem?_eq_getElem hp]
    rfl
  · rw [if_neg hq, if_neg (Ne.symm hq)]

/-- Adding a child leaves the links upwards, which are set when the child is made. -/
theorem parent?_addChild (arena : Arena) (p c y : Nat) : (arena.addChild p c).parent? y = arena.parent? y :=
  arena.parent?_modify p y _ fun _ => rfl

theorem size_addChild (arena : Arena) (p c : Nat) : (arena.addChild p c).size = arena.size := arena.size_modify p _

/-- The tree with one more element, which has no children yet. -/
theorem parent?_push (arena : Arena) (c : Content) (parent : Option Nat) (x : Nat) :
    parent? ⟨arena.nodes.push ⟨c, parent, []⟩⟩ x = if x = arena.size then parent else arena.parent? x := by
  unfold parent?
  rw [Array.getElem?_push]
  by_cases hx : x = arena.nodes.size
  · rw [if_pos hx, if_pos (show x = arena.size from hx)]
    rfl
  · rw [if_neg hx, if_neg (show ¬x = arena.size from hx)]

/-- A new element has no children, and is nobody's child yet. -/
theorem children_push (arena : Arena) (c : Content) (parent : Option Nat) (x : Nat) :
    children ⟨arena.nodes.push ⟨c, parent, []⟩⟩ x = arena.children x := by
  unfold children
  rw [Array.getElem?_push]
  split
  · next h => rw [h, Array.getElem?_size]; rfl
  · rfl

theorem size_push (arena : Arena) (node : Node) : size ⟨arena.nodes.push node⟩ = arena.size + 1 := Array.size_push ..

/-! ## Growth -/

/-- A larger tree, in which elements that were there before keep their parents. -/
structure Widens (arena arena' : Arena) : Prop where
  size : arena.size ≤ arena'.size
  parent : ∀ x < arena.size, arena'.parent? x = arena.parent? x

namespace Widens

variable {a b c : Arena}

theorem refl (a : Arena) : Widens a a := ⟨Nat.le_refl _, fun _ _ => rfl⟩

theorem trans (h : Widens a b) (h' : Widens b c) : Widens a c where
  size := Nat.le_trans h.size h'.size
  parent x hx := (h'.parent x (Nat.lt_of_lt_of_le hx h.size)).trans (h.parent x hx)

theorem push (arena : Arena) (c : Content) (parent : Option Nat) :
    Widens arena ⟨arena.nodes.push ⟨c, parent, []⟩⟩ where
  size := by rw [size_push]; exact Nat.le_succ _
  parent x hx := by rw [parent?_push, if_neg (Nat.ne_of_lt hx)]

theorem addChild (h : Widens a b) (p c : Nat) : Widens a (b.addChild p c) where
  size := by rw [size_addChild]; exact h.size
  parent x hx := by rw [parent?_addChild]; exact h.parent x hx

end Widens

mutual

/-- Inserting a description leaves what was there, and gives the next number to an element under the parent. -/
theorem widens_insert (arena : Arena) (parent : Option Nat) (spec : Spec) :
    Widens arena (arena.insert parent spec) ∧ arena.size < (arena.insert parent spec).size ∧
      (arena.insert parent spec).parent? arena.size = parent := by
  cases spec with
  | node content specs =>
    rw [insert]
    have hbelow := widens_insertAll ⟨arena.nodes.push ⟨content, parent, []⟩⟩ arena.size specs
    have hsize := size_push arena ⟨content, parent, []⟩
    refine ⟨(Widens.push arena content parent).trans hbelow, ?_, ?_⟩
    · have hle := hbelow.size
      omega
    · rw [hbelow.parent _ (by omega), parent?_push, if_pos rfl]

/-- **Whatever is inserted comes behind**: elements that were there keep what they hold. -/
theorem widens_insertAll (arena : Arena) (parent : Nat) (specs : List Spec) :
    Widens arena (arena.insertAll parent specs) := by
  cases specs with
  | nil => rw [insertAll]; exact .refl arena
  | cons spec rest =>
    rw [insertAll]
    have hfirst := (widens_insert arena (some parent) spec).1.addChild parent arena.size
    exact hfirst.trans (widens_insertAll _ parent rest)

end

namespace LinkedBut

/-- A new element without children is pending. -/
theorem push (h : arena.LinkedBut pending) (content : Content) {parent : Option Nat}
    (hparent : ∀ p, parent = some p → p < arena.size) :
    LinkedBut ⟨arena.nodes.push ⟨content, parent, []⟩⟩ (arena.size :: pending) where
  up x p hx := by
    rw [parent?_push] at hx
    split at hx
    · next heq => exact heq ▸ hparent p hx
    · exact h.up x p hx
  down p x := by
    have hcount := h.down p x
    rw [children_push, hcount, parent?_push]
    by_cases hx : x = arena.size
    · subst hx
      rw [parent?_of_size_le (Nat.le_refl _)]
      simp
    · simp [hx]

/-- **A pending element enters the list of its parent.** -/
theorem adopt {c : Nat} (h : arena.LinkedBut (c :: pending)) (hp : p < arena.size) (hc : arena.parent? c = some p)
    (hnot : c ∉ pending) : (arena.addChild p c).LinkedBut pending where
  up x q hx := h.up x q (by rwa [parent?_addChild] at hx)
  down q x := by
    have hcount := h.down q x
    rw [parent?_addChild, children_addChild _ hp]
    by_cases hx : x = c
    · -- it was in no list, and enters one
      subst hx
      simp only [List.mem_cons, true_or, not_true_eq_false, and_false, if_false] at hcount
      by_cases hq : q = p
      · subst hq
        simp [hcount, hc, hnot]
      · have hne : ¬p = q := Ne.symm hq
        simp [hq, hcount, hc, hne]
    · have hcount' : (arena.children q).count x =
          if arena.parent? x = some q ∧ x ∉ pending then 1 else 0 := by simpa [hx] using hcount
      rw [← hcount']
      split
      · next heq =>
        subst heq
        rw [List.count_append, List.count_singleton, if_neg (by simpa using Ne.symm hx), Nat.add_zero]
      · rfl

/-- An element without a parent is in no list, pending or not. -/
theorem settle {c : Nat} (h : arena.LinkedBut (c :: pending)) (hc : arena.parent? c = none) :
    arena.LinkedBut pending where
  up := h.up
  down p x := by
    rw [h.down p x]
    by_cases hx : x = c
    · subst hx
      simp [hc]
    · simp [hx]

end LinkedBut

mutual

/-- **An inserted element is pending, and everything below it is linked.** -/
theorem linked_insert {arena : Arena} {pending : List Nat} (h : arena.LinkedBut pending)
    (hpending : ∀ x ∈ pending, x < arena.size) {parent : Option Nat} (hparent : ∀ p, parent = some p → p < arena.size)
    (spec : Spec) : (arena.insert parent spec).LinkedBut (arena.size :: pending) := by
  cases spec with
  | node content specs =>
    rw [insert]
    have hsize := size_push arena ⟨content, parent, []⟩
    refine linked_insertAll (h.push content hparent) ?_ (by omega) specs
    intro x hx
    rcases List.mem_cons.mp hx with rfl | hx
    · omega
    · have hlt := hpending x hx
      omega

/-- **Inserting elements one after the other** leaves a linked tree. -/
theorem linked_insertAll {arena : Arena} {pending : List Nat} (h : arena.LinkedBut pending)
    (hpending : ∀ x ∈ pending, x < arena.size) {parent : Nat} (hparent : parent < arena.size) (specs : List Spec) :
    (arena.insertAll parent specs).LinkedBut pending := by
  cases specs with
  | nil => rw [insertAll]; exact h
  | cons spec rest =>
    rw [insertAll]
    obtain ⟨hwidens, hlt, hnew⟩ := widens_insert arena (some parent) spec
    have hfirst : (arena.insert (some parent) spec).LinkedBut (arena.size :: pending) :=
      linked_insert h hpending (fun p hp => Option.some.inj hp ▸ hparent) spec
    have hsize := size_addChild (arena.insert (some parent) spec) parent arena.size
    refine linked_insertAll (hfirst.adopt (by omega) hnew ?_) ?_ (by omega) rest
    · intro hmem
      exact Nat.lt_irrefl _ (hpending _ hmem)
    · intro x hx
      have hold := hpending x hx
      omega

end

/-- Appending to an element that is there leaves a linked tree. -/
theorem Linked.append (h : arena.Linked) (hp : p < arena.size) (spec : Spec) : (arena.append p spec).Linked := by
  obtain ⟨hwidens, hlt, hnew⟩ := widens_insert arena (some p) spec
  have hinsert : (arena.insert (some p) spec).LinkedBut [arena.size] :=
    linked_insert h (by simp) (fun q hq => Option.some.inj hq ▸ hp) spec
  exact hinsert.adopt (by omega) hnew List.not_mem_nil

/-- The tree of a description is linked. -/
theorem Linked.ofSpec (spec : Spec) : (Arena.ofSpec spec).Linked := by
  have hempty : empty.Linked := ⟨fun x p hx => by simp [parent?, empty] at hx, fun p x => by simp [children, parent?, empty]⟩
  have hinsert : (Arena.ofSpec spec).LinkedBut [0] := linked_insert hempty (by simp) (by simp) spec
  exact hinsert.settle (widens_insert empty none spec).2.2

/-! ## Changes of what elements hold -/

/-- What elements hold has nothing to do with their links. -/
theorem Linked.edit (h : arena.Linked) (x : Nat) (f : Content → Content) : (arena.edit x f).Linked where
  up y p hy := h.up y p (by rwa [parent?_edit] at hy)
  down p y := by
    rw [parent?_edit, children_edit]
    exact h.down p y

/-- Elements that are taken out have no parent, and the others keep theirs. -/
theorem links_foldl (xs : List Nat) (arena : Arena) (y : Nat) :
    (xs.foldl (fun arena child => arena.modify child fun node => { node with parent := none }) arena).parent? y =
        (if y ∈ xs then none else arena.parent? y) ∧
      (xs.foldl (fun arena child => arena.modify child fun node => { node with parent := none }) arena).children y =
        arena.children y := by
  induction xs generalizing arena with
  | nil => simp
  | cons x rest ih =>
    obtain ⟨hparent, hchildren⟩ := ih (arena.modify x fun node => { node with parent := none })
    have hfirst : (arena.modify x fun node => { node with parent := none }).parent? y =
        if y = x then none else arena.parent? y := by
      unfold parent? modify
      rw [Array.getElem?_modify]
      by_cases hy : x = y
      · subst hy
        cases arena.nodes[x]? <;> simp
      · simp [hy, Ne.symm hy]
    rw [List.foldl_cons, hparent, hchildren, hfirst]
    refine ⟨?_, arena.children_modify _ _ _ fun _ => rfl⟩
    by_cases hy : y = x
    · simp [hy]
    · simp [hy]

/-- The children of an element that are taken out have no parent any more. -/
theorem parent?_detachChildren (arena : Arena) (x y : Nat) :
    (arena.detachChildren x).parent? y = if y ∈ arena.children x then none else arena.parent? y := by
  have hkept := arena.parent?_modify x y (fun node => { node with children := [] }) fun _ => rfl
  unfold detachChildren
  rw [(links_foldl _ _ _).1, hkept]

theorem children_detachChildren (arena : Arena) (x y : Nat) :
    (arena.detachChildren x).children y = if y = x then [] else arena.children y := by
  unfold detachChildren
  rw [(links_foldl _ _ _).2]
  unfold children modify
  rw [Array.getElem?_modify]
  by_cases hy : x = y
  · subst hy
    cases arena.nodes[x]? <;> simp
  · simp [hy, Ne.symm hy]

namespace Linked

/-- **An element is in the list of its parent, and in no other.** -/
theorem mem_children_iff (h : arena.Linked) : x ∈ arena.children p ↔ arena.parent? x = some p := by
  rw [← List.count_pos_iff, h.down p x]
  split
  · next hx => simp [hx.1]
  · next hx => simpa using hx

/-- No element stands twice in a list of children. -/
theorem nodup_children (h : arena.Linked) (p : Nat) : (arena.children p).Nodup := by
  rw [List.nodup_iff_count]
  intro x
  rw [h.down p x]
  split <;> omega

/-- **Taking the children of an element out** leaves a linked tree: the links are cut on both ends. -/
theorem detachChildren (h : arena.Linked) (x : Nat) : (arena.detachChildren x).Linked where
  up y p hy := by
    rw [parent?_detachChildren] at hy
    split at hy
    · cases hy
    · exact h.up y p hy
  down p y := by
    rw [children_detachChildren, parent?_detachChildren]
    have hmem := h.mem_children_iff (x := y) (p := x)
    by_cases hp : p = x
    · -- all its children are taken out
      subst hp
      by_cases hy : arena.parent? y = some p
      · simp [hmem.mpr hy]
      · simp [hy]
    · rw [if_neg hp, h.down p y]
      by_cases hy : arena.parent? y = some p
      · have hnot : y ∉ arena.children x := fun hin => by
          rw [hmem.mp hin] at hy
          exact hp (Option.some.inj hy).symm
        simp [hy, hnot]
      · simp [hy]

/-- **Parents and children say the same in every tree that can be built.** -/
theorem of_grown (h : arena.Grown) : arena.Linked := by
  induction h with
  | ofSpec spec => exact .ofSpec spec
  | append h hparent spec ih => exact ih.append hparent spec
  | edit h x f ih => exact ih.edit x f
  | setText h x text ih => exact (ih.detachChildren x).edit x _
  | setHtml h x markup ih => exact (ih.detachChildren x).edit x _

end Linked

end Arena

end Databind
