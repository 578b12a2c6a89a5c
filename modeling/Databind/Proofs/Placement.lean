import Databind.Proofs.Linking
import Databind.Proofs.Narrowing

/-!
# `Proofs.Placement` — where elements stand

In a tree whose links agree, a walk up finds exactly the elements above, a walk down finds exactly the elements below,
and the position of an element is its place among the children of its parent that share its tag. The walks stop where a
number would not get smaller, or larger; with links that agree this never happens, so they reach the end.

## Main definitions

* `Arena.Ascends` — the way from an element to the topmost one above it.
* `Arena.IsNthOfType` — the place of an element among its siblings of the same tag.
-/

namespace Databind

namespace Arena

variable {arena : Arena} {x y p : Nat}

/-- **The way up from an element**: the element, its parent, and so on to one that has no parent. -/
inductive Ascends (arena : Arena) : Nat → List Nat → Prop
  | top {x : Nat} (h : arena.parent? x = none) : Ascends arena x [x]
  | up {x p : Nat} {path : List Nat} (h : arena.parent? x = some p) (hpath : Ascends arena p path) :
    Ascends arena x (x :: path)

/-- There is only one way up. -/
theorem Ascends.unique {path path' : List Nat} (h : arena.Ascends x path) (h' : arena.Ascends x path') :
    path = path' := by
  induction h generalizing path' with
  | top hx =>
    cases h' with
    | top => rfl
    | up hx' =>
      rw [hx] at hx'
      cases hx'
  | up hx hpath ih =>
    cases h' with
    | top hx' =>
      rw [hx] at hx'
      cases hx'
    | up hx' hpath' =>
      rw [hx] at hx'
      cases hx'
      rw [ih hpath']

theorem below_iff_child : arena.Below y x ↔ ∃ c, arena.parent? c = some x ∧ (y = c ∨ arena.Below y c) := by
  unfold Below
  rw [Relation.TransGen.tail'_iff]
  apply exists_congr
  intro c
  rw [Relation.reflTransGen_iff_eq_or_transGen, and_comm, @eq_comm _ c y]

namespace Linked

/-! ## Walks -/

theorem ancestors_of_parent (h : arena.Linked) (hp : arena.parent? x = some p) :
    arena.ancestors x = p :: arena.ancestors p := by
  have hlt := h.up x p hp
  rw [ancestors]
  split
  · next q hq =>
    cases hp.symm.trans hq
    rw [if_pos hlt]
  · next hnone => cases hp.symm.trans hnone

theorem ancestors_of_top (hx : arena.parent? x = none) : arena.ancestors x = [] := by
  rw [ancestors]
  split
  · next q hq => cases hx.symm.trans hq
  · rfl

/-- **A walk up takes the whole way.** -/
theorem ascends_ancestors (h : arena.Linked) (x : Nat) : arena.Ascends x (x :: arena.ancestors x) := by
  induction x using Nat.strongRecOn with
  | ind x ih =>
    cases hx : arena.parent? x with
    | none =>
      rw [ancestors_of_top hx]
      exact .top hx
    | some p =>
      rw [h.ancestors_of_parent hx]
      exact .up hx (ih p (h.up x p hx))

/-- **A walk up finds exactly the elements above.** -/
theorem mem_ancestors_iff (h : arena.Linked) : y ∈ arena.ancestors x ↔ arena.Below x y := by
  constructor
  · exact below_of_mem_ancestors
  · intro hbelow
    induction hbelow using Relation.TransGen.head_induction_on with
    | single hxy =>
      rw [h.ancestors_of_parent hxy]
      exact List.mem_cons_self
    | head hxz hzy ih =>
      rw [h.ancestors_of_parent hxz]
      exact List.mem_cons_of_mem _ ih

theorem isDescendantOf_iff (h : arena.Linked) : arena.isDescendantOf x y = true ↔ arena.Below x y := by
  rw [isDescendantOf, List.contains_iff_mem, h.mem_ancestors_iff]

/-- A walk down goes on at every child. -/
theorem withDescendants_eq (h : arena.Linked) (x : Nat) :
    arena.withDescendants x = x :: (arena.children x).flatMap arena.withDescendants := by
  rw [withDescendants]
  congr 1
  apply List.flatMap_congr
  intro c hc
  have hparent := h.mem_children_iff.mp hc
  exact dif_pos ⟨h.up c x hparent, lt_size_of_parent? hparent⟩

theorem mem_withDescendants_iff (h : arena.Linked) : y ∈ arena.withDescendants x ↔ y = x ∨ arena.Below y x := by
  -- the induction is on what is left of the tree behind the element
  induction hsize : arena.size - x using Nat.strongRecOn generalizing x with
  | ind n ih =>
    rw [h.withDescendants_eq, List.mem_cons, below_iff_child, List.mem_flatMap]
    refine or_congr_right (exists_congr fun c => ?_)
    rw [h.mem_children_iff]
    apply and_congr_right
    intro hc
    have hlt := h.up c x hc
    have hthere := lt_size_of_parent? hc
    exact ih (arena.size - c) (by omega) rfl

/-- **A walk down finds exactly the elements below.** -/
theorem mem_descendants_iff (h : arena.Linked) : y ∈ arena.descendants x ↔ arena.Below y x := by
  rw [descendants, h.withDescendants_eq, List.tail_cons, List.mem_flatMap, below_iff_child]
  apply exists_congr
  intro c
  rw [h.mem_children_iff, h.mem_withDescendants_iff]

end Linked

/-! ## Positions -/

theorem sameTag_refl (tag : String) : sameTag tag tag = true := beq_self_eq_true _

/-- **An element is the `n`-th of its type**: of the siblings before it, all but `n - 1` have another tag. An element
without a parent is the first. -/
def IsNthOfType (arena : Arena) (x n : Nat) : Prop :=
  arena.parent? x = none ∧ n = 1 ∨
    ∃ p before after, arena.parent? x = some p ∧ arena.children p = before ++ x :: after ∧
      n = (before.filter fun y => sameTag (arena.content y).tag (arena.content x).tag).length + 1

namespace Linked

/-- The position of an element counts the siblings before it. -/
theorem positionOfType_of_split (h : arena.Linked) (hp : arena.parent? x = some p) {before after : List Nat}
    (hchildren : arena.children p = before ++ x :: after) :
    arena.positionOfType x =
      some ((before.filter fun y => sameTag (arena.content y).tag (arena.content x).tag).length + 1) := by
  have hnodup := h.nodup_children p
  rw [hchildren] at hnodup
  have hnot : x ∉ before := fun hmem => List.disjoint_of_nodup_append hnodup hmem List.mem_cons_self
  have hbefore : (before.filter fun y => sameTag (arena.content y).tag (arena.content x).tag).findIdx? (· == x) =
      none := by
    rw [List.findIdx?_eq_none_iff]
    intro y hy
    rw [beq_eq_false_iff_ne]
    rintro rfl
    exact hnot (List.mem_filter.mp hy).1
  unfold positionOfType
  rw [hp]
  simp only [hchildren, List.filter_append, List.filter_cons, sameTag_refl, if_true, List.idxOf?,
    List.findIdx?_append, hbefore, List.findIdx?_cons, beq_self_eq_true, Option.map_some, Nat.zero_add, Option.none_or]

/-- **The position of an element is its place among its siblings of the same tag.** -/
theorem positionOfType_eq_some_iff (h : arena.Linked) {n : Nat} :
    arena.positionOfType x = some n ↔ arena.IsNthOfType x n := by
  unfold IsNthOfType
  cases hp : arena.parent? x with
  | none =>
    have htop : arena.positionOfType x = some 1 := by rw [positionOfType, hp]
    rw [htop]
    simp [eq_comm]
  | some p =>
    constructor
    · intro hn
      obtain ⟨before, after, hchildren⟩ := List.append_of_mem (h.mem_children_iff.mpr hp)
      rw [h.positionOfType_of_split hp hchildren] at hn
      exact .inr ⟨p, before, after, rfl, hchildren, (Option.some.inj hn).symm⟩
    · rintro (⟨hnone, -⟩ | ⟨q, before, after, hq, hchildren, rfl⟩)
      · cases hnone
      · cases hq
        exact h.positionOfType_of_split hp hchildren

end Linked

end Arena

end Databind
