import Databind.Proofs.Placement

/-!
# `Proofs.Sweep` — what a query finds, and in which order

A query walks down from its root with a stack: the element on top is found, and its children take its place. In a tree
whose links agree the walk ends, and finds what the recursion over the children lists. Elements are found in document
order, which is said here without a walk: an element stands before what is below it, and before what is below, or is, a
later sibling of it or of an element above it.

## Main definitions

* `Arena.Sweeps` — the walk with a stack.
* `Arena.Before` — document order.
-/

namespace Databind

namespace Arena

variable {arena : Arena} {x y : Nat} {stack found : List Nat}

/-! ## The walk with a stack -/

/-- **The walk down with a stack**: the element on top is found, and its children take its place. -/
inductive Sweeps (arena : Arena) : List Nat → List Nat → Prop
  | done : Sweeps arena [] []
  | next {x : Nat} {stack found : List Nat} (h : Sweeps arena (arena.children x ++ stack) found) :
    Sweeps arena (x :: stack) (x :: found)

/-- There is only one way down. -/
theorem Sweeps.unique {found' : List Nat} (h : arena.Sweeps stack found) (h' : arena.Sweeps stack found') :
    found = found' := by
  induction h generalizing found' with
  | done =>
    cases h'
    rfl
  | next hrest ih =>
    cases h' with
    | next hrest' => rw [ih hrest']

/-- **A walk down ends**, and finds every element of the stack with what is below it. -/
theorem Linked.sweeps (h : arena.Linked) (stack : List Nat) :
    arena.Sweeps stack (stack.flatMap arena.withDescendants) := by
  -- the induction is on what is still to be found
  induction hlength : (stack.flatMap arena.withDescendants).length using Nat.strongRecOn generalizing stack with
  | ind n ih =>
    cases stack with
    | nil => exact .done
    | cons x rest =>
      have hfound : (x :: rest).flatMap arena.withDescendants =
          x :: (arena.children x ++ rest).flatMap arena.withDescendants := by
        rw [List.flatMap_cons, h.withDescendants_eq, List.flatMap_append, List.cons_append]
      rw [hfound, List.length_cons] at hlength
      rw [hfound]
      exact .next (ih _ (by omega) _ rfl)

theorem Linked.descendants_eq (h : arena.Linked) (x : Nat) :
    arena.descendants x = (arena.children x).flatMap arena.withDescendants := by
  rw [descendants, h.withDescendants_eq, List.tail_cons]

/-! ## Document order -/

/-- The element or something below it. -/
def Within (arena : Arena) (x root : Nat) : Prop := x = root ∨ arena.Below x root

theorem Within.below {c p : Nat} (hxc : arena.Within x c) (hc : arena.parent? c = some p) : arena.Below x p :=
  below_iff_child.mpr ⟨c, hc, hxc⟩

/-- **Document order**: an element comes before what is below it, and what is within an element comes before what is within
a later sibling. -/
def Before (arena : Arena) (x y : Nat) : Prop :=
  arena.Below y x ∨ ∃ p c d, [c, d].Sublist (arena.children p) ∧ arena.Within x c ∧ arena.Within y d

/-- In a list without repetition one element is in front of another, or the other way around. -/
theorem not_sublist_swap {α : Type} {a b : α} {xs : List α} (h : xs.Nodup) (hab : [a, b].Sublist xs) :
    ¬[b, a].Sublist xs := by
  induction xs with
  | nil => simp at hab
  | cons x rest ih =>
    obtain ⟨hx, hrest⟩ := List.nodup_cons.mp h
    intro hba
    rw [List.cons_sublist_cons'] at hab hba
    simp only [List.singleton_sublist] at hab hba
    obtain hab | ⟨rfl, hb⟩ := hab
    · obtain hba | ⟨rfl, ha⟩ := hba
      · exact ih hrest hab hba
      · exact hx (hab.subset (by simp))
    · obtain hba | ⟨rfl, ha⟩ := hba
      · exact hx (hba.subset (by simp))
      · exact hx hb

namespace Linked

theorem lt_of_below (h : arena.Linked) (hbelow : arena.Below x y) : y < x := by
  induction hbelow using Relation.TransGen.head_induction_on with
  | single hp => exact h.up _ _ hp
  | head hp hrest ih => exact Nat.lt_trans ih (h.up _ _ hp)

/-- **An element is within one child of an element at most.** -/
theorem within_unique (h : arena.Linked) {p c d : Nat} (hc : arena.parent? c = some p) (hd : arena.parent? d = some p)
    (hxc : arena.Within x c) (hxd : arena.Within x d) : c = d := by
  -- a child is not below another of the same parent: it would be below, or be, that parent
  have hnot : ∀ {a b}, arena.parent? a = some p → arena.parent? b = some p → ¬arena.Below a b := by
    intro a b ha hb hbelow
    have hup : arena.Within p b := by
      obtain ⟨q, hq, hrest⟩ := Relation.TransGen.head'_iff.mp hbelow
      cases ha.symm.trans hq
      exact (Relation.reflTransGen_iff_eq_or_transGen.mp hrest).imp Eq.symm id
    have hle : b ≤ p := hup.elim (fun heq => Nat.le_of_eq heq.symm) fun hpb => Nat.le_of_lt (h.lt_of_below hpb)
    exact Nat.lt_irrefl p (Nat.lt_of_lt_of_le (h.up b p hb) hle)
  obtain rfl | hxc := hxc
  · exact hxd.resolve_right (hnot hc hd)
  · obtain rfl | hxd := hxd
    · exact absurd hxc (hnot hd hc)
    · obtain heq | hbelow | hbelow := hxc.connected hxd
      · exact heq
      · exact absurd hbelow (hnot hc hd)
      · exact absurd hbelow (hnot hd hc)

/-- What is below an element is within one child of it only, so an element with two things below it that are within
different children of another is not below that one. -/
theorem not_below_of_apart (h : arena.Linked) {p q c d : Nat} (hc : arena.parent? c = some q)
    (hd : arena.parent? d = some q) (hne : c ≠ d) (hxc : arena.Within x c) (hyd : arena.Within y d)
    (hxp : arena.Below x p) (hyp : arena.Below y p) : ¬arena.Below p q := by
  intro hpq
  obtain ⟨e, he, hpe⟩ := below_iff_child.mp hpq
  have hbelow : ∀ {z}, arena.Below z p → arena.Within z e := by
    intro z hz
    exact .inr (hpe.elim (fun heq => heq ▸ hz) fun hpe => hz.trans hpe)
  exact hne ((h.within_unique hc he hxc (hbelow hxp)).trans (h.within_unique he hd (hbelow hyp) hyd))

/-- Siblings of which one is earlier are children of one element, and they differ. -/
theorem siblings_of_sublist (h : arena.Linked) {p c d : Nat} (hsublist : [c, d].Sublist (arena.children p)) :
    arena.parent? c = some p ∧ arena.parent? d = some p ∧ c ≠ d := by
  have hnodup := hsublist.nodup (h.nodup_children p)
  refine ⟨h.mem_children_iff.mp (hsublist.subset (by simp)), h.mem_children_iff.mp (hsublist.subset (by simp)), ?_⟩
  rintro rfl
  simp at hnodup

/-- An element is not within another child than what is below it. -/
theorem not_within_apart (h : arena.Linked) (hyx : arena.Below y x) {p c d : Nat} (hc : arena.parent? c = some p)
    (hd : arena.parent? d = some p) (hne : c ≠ d) (hyc : arena.Within y c) : ¬arena.Within x d := by
  intro hxd
  have hyd : arena.Within y d := .inr (hxd.elim (fun heq => heq ▸ hyx) fun hxd => hyx.trans hxd)
  exact hne (h.within_unique hc hd hyc hyd)

/-- **Document order is strict**: of two elements at most one comes before the other. -/
theorem not_before_of_before (h : arena.Linked) (hxy : arena.Before x y) : ¬arena.Before y x := by
  intro hyx
  obtain hbelow | ⟨p, c, d, hsublist, hxc, hyd⟩ := hxy
  · obtain hbelow' | ⟨q, c', d', hsublist', hyc', hxd'⟩ := hyx
    · exact Nat.lt_asymm (h.lt_of_below hbelow) (h.lt_of_below hbelow')
    · obtain ⟨hc', hd', hne'⟩ := h.siblings_of_sublist hsublist'
      exact h.not_within_apart hbelow hc' hd' hne' hyc' hxd'
  · obtain ⟨hc, hd, hne⟩ := h.siblings_of_sublist hsublist
    obtain hbelow' | ⟨q, c', d', hsublist', hyc', hxd'⟩ := hyx
    · exact h.not_within_apart hbelow' hc hd hne hxc hyd
    · obtain ⟨hc', hd', hne'⟩ := h.siblings_of_sublist hsublist'
      obtain rfl | hpq | hqp := (hxc.below hc).connected (hxd'.below hd')
      · -- children of one element: each would be the earlier one
        cases h.within_unique hc hd' hxc hxd'
        cases h.within_unique hd hc' hyd hyc'
        exact not_sublist_swap (h.nodup_children p) hsublist hsublist'
      · exact h.not_below_of_apart hc' hd' hne' hyc' hxd' (hyd.below hd) (hxc.below hc) hpq
      · exact h.not_below_of_apart hc hd hne hxc hyd (hxd'.below hd') (hyc'.below hc') hqp

/-- **A walk down finds elements in document order.** -/
theorem pairwise_withDescendants (h : arena.Linked) (x : Nat) : (arena.withDescendants x).Pairwise arena.Before := by
  -- the induction is on what is left of the tree behind the element
  induction hsize : arena.size - x using Nat.strongRecOn generalizing x with
  | ind n ih =>
    rw [h.withDescendants_eq, List.pairwise_cons, List.pairwise_flatMap]
    refine ⟨?_, ?_, List.pairwise_iff_forall_sublist.mpr ?_⟩
    · intro y hy
      rw [← h.descendants_eq, h.mem_descendants_iff] at hy
      exact .inl hy
    · intro c hc
      have hparent := h.mem_children_iff.mp hc
      have hlt := h.up c x hparent
      have hthere := lt_size_of_parent? hparent
      exact ih (arena.size - c) (by omega) c rfl
    · intro c d hsublist y hy z hz
      exact .inr ⟨x, c, d, hsublist, h.mem_withDescendants_iff.mp hy, h.mem_withDescendants_iff.mp hz⟩

theorem pairwise_descendants (h : arena.Linked) (x : Nat) : (arena.descendants x).Pairwise arena.Before :=
  (h.pairwise_withDescendants x).sublist (List.tail_sublist _)

/-- Elements in document order are all different. -/
theorem nodup_of_pairwise (h : arena.Linked) {xs : List Nat} (hxs : xs.Pairwise arena.Before) : xs.Nodup := by
  refine hxs.imp ?_
  rintro x y hxy rfl
  exact h.not_before_of_before hxy hxy

/-- **There is one list of given elements in document order.** -/
theorem eq_of_pairwise (h : arena.Linked) {xs ys : List Nat} (hxs : xs.Pairwise arena.Before)
    (hys : ys.Pairwise arena.Before) (hmem : ∀ x, x ∈ xs ↔ x ∈ ys) : xs = ys := by
  have hperm := (List.perm_ext_iff_of_nodup (h.nodup_of_pairwise hxs) (h.nodup_of_pairwise hys)).mpr hmem
  exact hperm.eq_of_pairwise (fun x y _ _ hxy hyx => absurd hyx (h.not_before_of_before hxy)) hxs hys

end Linked

end Arena

/-! ## Queries -/

namespace Selector

/-- **A selector is read from its text without the blanks at its ends.** -/
theorem parse_trim {text : String} {selector : Selector} (h : parse text = .ok selector) :
    parse (Text.trim text) = .ok selector := by
  rw [parse_eq_ok] at h ⊢
  rwa [Text.trim, String.toList_ofList, readList_trimChars]

/-- Blank text is no selector. -/
theorem not_blank_of_parse {text : String} {selector : Selector} (h : parse text = .ok selector) :
    Text.isBlankText text = false := by
  rw [Text.isBlankText, beq_eq_false_iff_ne]
  intro hblank
  have htrim := parse_trim h
  have hempty : parse "" = .error ⟨"", .emptySelector⟩ := by decide +kernel
  rw [hblank, hempty] at htrim
  cases htrim

end Selector

/-- **The answer to a query**: the elements below a root that a selector matches, each once and in document order. -/
structure Arena.Answers (arena : Arena) (root : Nat) (selector : Selector) (found : List Nat) : Prop where
  mem : ∀ x, x ∈ found ↔ arena.Below x root ∧ selector.isMatch arena x = true
  nodup : found.Nodup
  order : found.Pairwise arena.Before

theorem Arena.Linked.answers_matching {arena : Arena} (h : arena.Linked) (root : Nat) (selector : Selector) :
    arena.Answers root selector (arena.matching root selector) := by
  have horder : (arena.matching root selector).Pairwise arena.Before := (h.pairwise_descendants root).filter _
  refine ⟨fun x => ?_, h.nodup_of_pairwise horder, horder⟩
  rw [matching, List.mem_filter, h.mem_descendants_iff]

/-- There is one answer. -/
theorem Arena.Linked.answers_unique {arena : Arena} (h : arena.Linked) {root : Nat} {selector : Selector}
    {found found' : List Nat} (hfound : arena.Answers root selector found) (hfound' : arena.Answers root selector found') :
    found = found' :=
  h.eq_of_pairwise hfound.order hfound'.order fun x => (hfound.mem x).trans (hfound'.mem x).symm

/-- A text that is a selector selects what it matches below the root of the scope. -/
theorem Store.select_of_parse (s : Store) (scope : Scope) {text : String} {selector : Selector}
    (h : Selector.parse text = .ok selector) :
    s.select scope text = (s, (s.arena scope.tree).matching scope.root selector) := by
  rw [select, if_neg (by simp [Selector.not_blank_of_parse h]), Selector.parse_trim h]

/-- **Links agree and queries are exact** in every tree that can be built. A parent has a smaller number, an element is in
the list of its parent once and in no other list, so every walk up and every walk down ends. A text that is a selector
selects its answer below the root of the scope, whichever element that is, and there is no other answer. -/
theorem Store.select_exact (s : Store) (tree : Nat) {arena : Arena} (hgrown : arena.Grown) (harena : s.arena tree = arena) :
    (∀ x p, arena.parent? x = some p → p < x) ∧
      (∀ p x, (arena.children p).count x = if arena.parent? x = some p then 1 else 0) ∧
      (∀ x, ∃ path, arena.Ascends x path) ∧
      (∀ x, arena.Sweeps (arena.children x) (arena.descendants x)) ∧
      ∀ root text selector, Selector.parse text = .ok selector →
        arena.Answers root selector (s.select ⟨tree, root⟩ text).2 ∧
          ∀ found, arena.Answers root selector found → found = (s.select ⟨tree, root⟩ text).2 := by
  have hlinked := Arena.Linked.of_grown hgrown
  refine ⟨hlinked.up, fun p x => by simpa using hlinked.down p x, fun x => ⟨_, hlinked.ascends_ancestors x⟩, ?_, ?_⟩
  · intro x
    rw [hlinked.descendants_eq]
    exact hlinked.sweeps _
  · intro root text selector hparse
    have hanswers := hlinked.answers_matching root selector
    rw [Store.select_of_parse s ⟨tree, root⟩ hparse, harena]
    exact ⟨hanswers, fun found hfound => hlinked.answers_unique hfound hanswers⟩

/-- A page whose first section lost its paragraph, which then got a link, while the section got another paragraph. -/
def revisedPage : Arena :=
  let page := Arena.ofSpec (.node (.ofTag "main")
    [.node (.ofTag "section") [.node (.ofTag "p") []], .node (.ofTag "p") []])
  ((page.setText 1 "").append 2 (.node (.ofTag "a") [])).append 1 (.node (.ofTag "p") [.node (.ofTag "a") []])

theorem revisedPage_grown : revisedPage.Grown :=
  .append (.append (.setText (.ofSpec _) 1 "") (by decide +kernel) _) (by decide +kernel) _

/-- The lost paragraph is out of reach from the top, and answers for itself. -/
theorem select_exact_revised : revisedPage.parent? 2 = none ∧ revisedPage.parent? 4 = some 2 ∧
    revisedPage.Answers 0 ⟨[.compound { tag := some "p" }]⟩ [5, 3] ∧
    revisedPage.Answers 2 ⟨[.compound { tag := some "a" }]⟩ [4] := by
  let s : Store := { Store.empty with trees := #[.ofArena revisedPage] }
  have hparagraphs : Selector.parse " p" = .ok ⟨[.compound { tag := some "p" }]⟩ := by decide +kernel
  have hlinks : Selector.parse "a" = .ok ⟨[.compound { tag := some "a" }]⟩ := by decide +kernel
  have hfound : (s.select ⟨0, 0⟩ " p").2 = [5, 3] := by
    rw [Store.select_of_parse s ⟨0, 0⟩ hparagraphs]
    decide +kernel
  have hbelow : (s.select ⟨0, 2⟩ "a").2 = [4] := by
    rw [Store.select_of_parse s ⟨0, 2⟩ hlinks]
    decide +kernel
  obtain ⟨-, -, -, -, hqueries⟩ := s.select_exact 0 revisedPage_grown rfl
  exact ⟨by decide +kernel, by decide +kernel, hfound ▸ (hqueries 0 _ _ hparagraphs).1, hbelow ▸ (hqueries 2 _ _ hlinks).1⟩

end Databind
