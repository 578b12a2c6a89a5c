import Databind.Proofs.Operation

/-!
# `Proofs.Shown` — what elements show after a notification

Bindings that are rendered one after the other paint a tree one after the other, each on the elements that its selector
selects by then: what is painted first may change that. Neither a rendering nor a notification on which binders show
bindings changes anything else that binders show.

## Main definitions

* `Store.shown` — a tree after a binder has shown a binding.
* `Store.Shows` — some bindings were shown on a tree, and nothing else was changed.
* `Store.shownBy` — the bindings that a listener shows when it hears a notification.
-/

namespace Databind

/-- A notification on which binders show bindings, and do nothing else. -/
def Signal.Repaints : Signal → Prop
  | .changed _ | .render => True
  | _ => False

theorem Signal.repaints_changed (set : ChangeSet) : (Signal.changed set).Repaints := trivial

theorem Signal.repaints_render : Signal.render.Repaints := trivial

/-! ## Painting -/

namespace Arena

variable (arena : Arena) (x y : Nat)

/-- Links that change leave what elements hold. -/
theorem content_modify (f : Node → Node) (hf : ∀ node, (f node).content = node.content) :
    (arena.modify x f).content y = arena.content y := by
  unfold content modify
  simp only [Array.getElem?_modify]
  split
  · next h =>
    subst h
    cases arena.nodes[x]? <;> simp [hf]
  · rfl

/-- An edit changes what one element holds, if it is there. -/
theorem content_edit (f : Content → Content) :
    (arena.edit x f).content y = if y = x ∧ x < arena.size then f (arena.content x) else arena.content y := by
  unfold content edit modify size
  simp only [Array.getElem?_modify]
  by_cases hy : x = y
  · subst hy
    by_cases hx : x < arena.nodes.size
    · simp [hx]
    · simp [hx]
  · simp [hy, Ne.symm hy]

theorem size_modify (f : Node → Node) : (arena.modify x f).size = arena.size := by simp [modify, size]

theorem detachChildren_eq : (arena.detachChildren x).content y = arena.content y ∧
    (arena.detachChildren x).size = arena.size := by
  have hkept : ∀ (a : Arena) (z : Nat) (f : Node → Node), (∀ node, (f node).content = node.content) →
      a.content y = arena.content y ∧ a.size = arena.size →
        (a.modify z f).content y = arena.content y ∧ (a.modify z f).size = arena.size :=
    fun a z f hf h => ⟨(a.content_modify z y f hf).trans h.1, (a.size_modify z f).trans h.2⟩
  exact List.foldlRecOn (motive := fun a : Arena => a.content y = arena.content y ∧ a.size = arena.size) _ _
    (hkept arena x _ (fun _ => rfl) ⟨rfl, rfl⟩) fun a h child _ => hkept a child _ (fun _ => rfl) h

/-- No element comes or goes when another is painted. -/
theorem size_paint (attr : Attribute) (v : Value) : (arena.paint x attr v).size = arena.size := by
  have hedit : ∀ (arena : Arena) f, (arena.edit x f).size = arena.size := fun arena f => arena.size_modify x _
  cases attr with
  | text | html => exact (hedit _ _).trans (arena.detachChildren_eq x x).2
  | dimension dimension =>
    simp only [paint]
    split
    · rfl
    · exact hedit _ _
  | _ => exact hedit _ _

/-- Painting an element changes the content of no other. -/
theorem content_paint {x y : Nat} (hne : y ≠ x) (attr : Attribute) (v : Value) :
    (arena.paint x attr v).content y = arena.content y := by
  have hedit : ∀ (arena : Arena) f, (arena.edit x f).content y = arena.content y := by
    intro arena f
    rw [content_edit, if_neg fun h => hne h.1]
  cases attr with
  | text | html => exact (hedit _ _).trans (arena.detachChildren_eq x y).1
  | dimension dimension =>
    simp only [paint]
    split
    · rfl
    · exact hedit arena _
  | _ => exact hedit arena _

end Arena

namespace Store

theorem size_paintAll (arena : Arena) (target : Attribute) (v : Value) (xs : List Nat) :
    (paintAll arena target v xs).size = arena.size := by
  induction xs generalizing arena with
  | nil => rfl
  | cons x rest ih => exact (ih _).trans (arena.size_paint x target v)

/-- **Painting elements** changes what these hold, and no others. -/
theorem content_paintAll (arena : Arena) (target : Attribute) (v : Value) {xs : List Nat} {y : Nat} (hy : y ∉ xs) :
    (paintAll arena target v xs).content y = arena.content y := by
  induction xs generalizing arena with
  | nil => rfl
  | cons x rest ih =>
    have hne : y ≠ x := fun heq => hy (heq ▸ List.mem_cons_self)
    exact (ih _ fun hmem => hy (List.mem_cons_of_mem _ hmem)).trans (arena.content_paint hne target v)

end Store

/-! ## Bindings that are rendered one after the other -/

/-- The elements on which a binding is shown, in a tree below a root. -/
def Binding.shownOn (c : Binding) (arena : Arena) (root : Nat) : List Nat :=
  if Text.isBlankText c.key.selector then [root]
  else
    match Selector.parse (Text.trim c.key.selector) with
    | .ok selector => arena.matching root selector
    | .error _ => []

namespace Store

variable (s : Store) (tree : Nat)

/-- The elements of a tree on which a binder shows a binding; `arena` is the tree as it is then. -/
def elementsOf (arena : Arena) (c : Nat × Binding) : List Nat :=
  if (s.binder c.1).scope.tree = tree then c.2.shownOn arena (s.binder c.1).scope.root else []

/-- The tree after a binder has shown a binding. -/
def shown (arena : Arena) (c : Nat × Binding) : Arena :=
  paintAll arena c.2.target (c.2.value (s.fields c.2.record)) (s.elementsOf tree arena c)

variable {s tree}

theorem size_shown (arena : Arena) (c : Nat × Binding) : (s.shown tree arena c).size = arena.size :=
  size_paintAll _ _ _ _

/-- Showing bindings one after the other leaves as many elements. -/
theorem size_shownAll (arena : Arena) (cs : List (Nat × Binding)) :
    (cs.foldl (s.shown tree) arena).size = arena.size := by
  induction cs generalizing arena with
  | nil => rfl
  | cons c rest ih => rw [List.foldl_cons, ih, size_shown]

/-! ## Stores that show the same -/

/-- Two stores whose binders show the same on the same tree, and whose records take the same writes. -/
structure Alike (s s' : Store) : Prop where
  binders : s'.binders = s.binders
  fields : ∀ id, s'.fields id = s.fields id
  alive : ∀ id, (s'.record id).alive = (s.record id).alive
  validator : ∀ id, (s'.record id).validator = (s.record id).validator
  trees : s'.trees.size = s.trees.size

namespace Alike

variable {s s' s'' : Store}

theorem refl (s : Store) : s.Alike s := ⟨rfl, fun _ => rfl, fun _ => rfl, fun _ => rfl, rfl⟩

/-- Stores with the same binders and records, and as many trees. -/
theorem of_eq (hbinders : s'.binders = s.binders) (hrecords : s'.records = s.records)
    (htrees : s'.trees.size = s.trees.size) : s.Alike s' := by
  refine ⟨hbinders, fun id => ?_, fun id => ?_, fun id => ?_, htrees⟩
  all_goals simp only [Store.fields, record, hrecords]

theorem trans (h : s.Alike s') (h' : s'.Alike s'') : s.Alike s'' where
  binders := h'.binders.trans h.binders
  fields id := (h'.fields id).trans (h.fields id)
  alive id := (h'.alive id).trans (h.alive id)
  validator id := (h'.validator id).trans (h.validator id)
  trees := h'.trees.trans h.trees

theorem binder (h : s.Alike s') (k : Nat) : s'.binder k = s.binder k := by simp only [Store.binder, h.binders]

/-- Both paint the same on whatever tree they are given. -/
theorem shown (h : s.Alike s') (tree : Nat) : s'.shown tree = s.shown tree := by
  funext arena c
  simp only [Store.shown, elementsOf, h.binder, h.fields]

end Alike

/-- **Some bindings were shown on a tree, one after the other**, and nothing else that binders show was changed. -/
structure Shows (tree : Nat) (cs : List (Nat × Binding)) (s s' : Store) : Prop extends s.Alike s' where
  arena : s'.arena tree = cs.foldl (s.shown tree) (s.arena tree)

theorem Shows.refl (tree : Nat) (s : Store) : Shows tree [] s s := ⟨.refl s, rfl⟩

/-- **What is shown adds up**: the bindings of the one, and then those of the other. -/
theorem Shows.trans {s s' s'' : Store} {cs cs' : List (Nat × Binding)} (h : Shows tree cs s s')
    (h' : Shows tree cs' s' s'') : Shows tree (cs ++ cs') s s'' :=
  ⟨h.toAlike.trans h'.toAlike, by rw [h'.arena, h.toAlike.shown, h.arena, List.foldl_append]⟩

/-! ## Rendering -/

/-- A notice shows nothing. -/
theorem shows_log (s : Store) (tree : Nat) (notice : Notice) : Shows tree [] s (s.log notice) :=
  ⟨.of_eq rfl rfl rfl, rfl⟩

/-- The elements that a selector selects, whatever it leaves in the journal. -/
theorem shows_select (s : Store) (tree : Nat) (scope : Scope) (c : Binding) :
    Shows tree [] s (s.select scope c.key.selector).1 ∧
      (s.select scope c.key.selector).2 = c.shownOn (s.arena scope.tree) scope.root := by
  unfold select Binding.shownOn
  split
  · exact ⟨.refl tree s, rfl⟩
  · cases Selector.parse (Text.trim c.key.selector) with
    | ok selector => exact ⟨.refl tree s, rfl⟩
    | error e => exact ⟨s.shows_log tree (.queryFailed e), rfl⟩

theorem arena_modifyArena (htree : tree < s.trees.size) (n : Nat) (f : Arena → Arena) :
    (s.modifyArena n f).arena tree = if n = tree then f (s.arena tree) else s.arena tree := by
  unfold modifyArena arena
  rw [tree_modifyTree]
  by_cases hn : n = tree
  · subst hn
    rw [if_pos ⟨rfl, htree⟩, if_pos rfl]
  · rw [if_neg fun h => hn h.1.symm, if_neg hn]

/-- **Rendering a binding** shows it on its elements, and does nothing else to a tree. -/
theorem shows_render (htree : tree < s.trees.size) (k : Nat) (c : Binding) : Shows tree [(k, c)] s (s.render k c) := by
  have hobserve : Shows tree [] s (s.observe (.query c.key.selector)) := ⟨.of_eq rfl rfl rfl, rfl⟩
  obtain ⟨hselect, helements⟩ := (s.observe (.query c.key.selector)).shows_select tree (s.binder k).scope c
  have hasked := hobserve.trans hselect
  have hsame : (s.observe (.query c.key.selector)).arena (s.binder k).scope.tree = s.arena (s.binder k).scope.tree := rfl
  rw [hsame] at helements
  -- the elements are selected in the tree as it was: neither the query nor its notice alters it
  unfold render
  simp only
  generalize (s.observe (.query c.key.selector)).select (s.binder k).scope c.key.selector = selected at *
  split
  · next hnone =>
    have hnobody : s.elementsOf tree (s.arena tree) (k, c) = [] := by
      unfold elementsOf
      split
      · next hscope => rw [← hscope, ← helements, hnone]
      · rfl
    have hlogged := hasked.trans (selected.1.shows_log tree (.noElement c.record c.key))
    refine ⟨hlogged.toAlike, ?_⟩
    rw [hlogged.arena]
    simp only [List.foldl_cons, List.foldl_nil, shown, hnobody, paintAll, List.append_nil]
  · have hlogged := fun v n => hasked.trans (selected.1.shows_log tree (.rendered c.record c.key v n))
    refine ⟨(hlogged _ _).toAlike.trans (.of_eq rfl rfl (Array.size_modify ..)), ?_⟩
    rw [arena_modifyArena ((hlogged _ _).trees ▸ htree), (hlogged _ _).arena, hasked.fields]
    simp only [List.foldl_cons, List.foldl_nil, List.append_nil, shown, elementsOf, helements]
    split
    · next hscope => rw [hscope]
    · simp only [paintAll, List.foldl_nil]

/-- **A binding writes to the elements that its selector selects**, and to no others. -/
theorem content_render {b : Binding} {x : Nat} (htree : (s.binder k).scope.tree < s.trees.size)
    (hx : x ∉ (s.select (s.binder k).scope b.key.selector).2) :
    ((s.render k b).arena (s.binder k).scope.tree).content x = (s.arena (s.binder k).scope.tree).content x := by
  have helements := (s.shows_select (s.binder k).scope.tree (s.binder k).scope b).2
  rw [(shows_render htree k b).arena]
  simp only [List.foldl_cons, List.foldl_nil, shown, elementsOf, if_true, ← helements]
  exact content_paintAll _ _ _ hx

/-- Bindings that are rendered in turn are shown in that order. -/
theorem shows_renderAll (htree : tree < s.trees.size) (k : Nat) (cs : List Binding) :
    Shows tree (cs.map (k, ·)) s (s.renderAll k cs) := by
  induction cs generalizing s with
  | nil => exact .refl tree s
  | cons c rest ih =>
    have hfirst := shows_render htree k c
    have hthere : tree < (s.render k c).trees.size := by rwa [hfirst.trees]
    rw [renderAll_cons]
    exact hfirst.trans (ih hthere)

/-! ## Listeners -/

/-- The bindings that a listener shows when it hears that fields were altered or that a record is to be rendered. -/
def shownBy (s : Store) (signal : Signal) (l : Listener) : List (Nat × Binding) :=
  match l, signal with
  | .repaint k id, .changed set =>
    if (s.binder k).retired then []
    else (((s.binder k).registry.bindingsOf id).filter (·.isTriggeredBy set)).map (k, ·)
  | .repaintAll k id, .render =>
    if (s.binder k).retired then [] else ((s.binder k).registry.bindingsOf id).map (k, ·)
  | _, _ => []

/-- Who shows what when it hears a notification is read off the binders. -/
theorem Alike.shownBy {s s' : Store} (h : s.Alike s') (signal : Signal) : s'.shownBy signal = s.shownBy signal := by
  funext l
  unfold Store.shownBy
  simp only [h.binder]

/-- **A listener that hears a notification** shows its bindings. -/
theorem shows_react (htree : tree < s.trees.size) (l : Listener) {signal : Signal} (hsignal : signal.Repaints) :
    Shows tree (s.shownBy signal l) s (Session.react s l signal) := by
  have hnothing : Shows tree [] s s := .refl tree s
  cases signal with
  | changed set =>
    cases l with
    | repaint k id =>
      simp only [Session.react, shownBy]
      split
      · exact hnothing
      · unfold onChange
        simp only
        split
        · next hnone =>
          rw [List.isEmpty_iff.mp hnone]
          exact s.shows_log tree _
        · exact shows_renderAll htree k _
    | _ => exact hnothing
  | render =>
    cases l with
    | repaintAll k id =>
      simp only [Session.react, shownBy]
      split
      · exact hnothing
      · have hlogged := s.shows_log tree (.forcedRender id ((s.binder k).registry.bindingsOf id).length)
        exact hlogged.trans (shows_renderAll (hlogged.trees ▸ htree) k ((s.binder k).registry.bindingsOf id))
    | _ => exact hnothing
  | _ => exact absurd hsignal id

end Store

end Databind
