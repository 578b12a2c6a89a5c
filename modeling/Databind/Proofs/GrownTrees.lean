import Databind.Proofs.Run

/-!
# `Proofs.GrownTrees` — the trees of a run can be built

A command builds a tree from a description, appends to it or changes an aspect of an element, and a binder paints on
its elements; nothing else alters a tree. So every tree of every run can be built (`Machine.grown_of_walk`), and what
holds of all such trees holds in every state, unless the host appends to an element by a name that denotes an element of
another tree. That is a deed of its own, `Deed.strayed`, and the only effect that may build something else.
-/

namespace Databind

namespace Store

variable {s s' : Store} {k : Nat}

/-- What leaves the elements of a tree alone leaves a tree that can be built. -/
theorem Grown.of_arena (h : s.Grown k) (hsize : s'.trees.size = s.trees.size) (harena : s'.arena k = s.arena k) :
    s'.Grown k := by
  intro hk
  rw [harena]
  exact h (hsize ▸ hk)

theorem grown_modifyTree (h : s.Grown k) (n : Nat) {f : Tree → Tree} (hf : ∀ t, (f t).arena = t.arena) :
    (s.modifyTree n f).Grown k := h.of_arena (Array.size_modify ..) (s.arena_modifyTree n k hf)

theorem grown_modifyRoster (h : s.Grown k) (ch : Channel) (f : {α : Type} → Roster α → Roster α) :
    (s.modifyRoster ch f).Grown k := by
  cases ch with
  | delegations n => exact grown_modifyTree h n fun _ => rfl
  | _ => exact h

theorem grown_subscribe (h : s.Grown k) (ch : Channel) (listener : Listener) : (s.subscribe ch listener).1.Grown k := by
  cases ch <;> exact h

/-- **Rendering** paints on elements, and alters no tree otherwise. -/
theorem grown_render (h : s.Grown k) (n : Nat) (b : Binding) : (s.render n b).Grown k := by
  have hobserve := s.extends_observe (.query b.key.selector)
  have hselect := (s.observe (.query b.key.selector)).extends_select (s.binder n).scope b.key.selector
  have hasked := (hobserve.trans hselect).grown k h
  unfold render
  simp only
  generalize (s.observe (.query b.key.selector)).select (s.binder n).scope b.key.selector = selected at hasked ⊢
  split
  · exact hasked
  · refine grown_modifyArena _ (fun harena => ?_) k hasked
    exact harena.paintAll b.target _ _

/-- **A move on a binder** alters no tree. -/
theorem Rewire.grown {n : Nat} {a : Act} {x y : Store × List Post} (h : Rewire n a x y) (hgrown : x.1.Grown k) :
    y.1.Grown k := by
  cases h with
  | extended h => exact h.grown k hgrown
  | subscribed ch listener => exact grown_subscribe hgrown ch listener
  | delegated scope => exact grown_modifyTree hgrown scope.tree fun _ => rfl
  | dropped g => exact grown_modifyRoster hgrown g.channel _
  | rebound => exact hgrown

theorem Rewires.grown {n : Nat} {a : Act} {x y : Store × List Post} (h : Rewires n a x y) (hgrown : x.1.Grown k) :
    y.1.Grown k := by
  induction h with
  | refl => exact hgrown
  | tail _ hlast ih => exact hlast.grown ih

end Store

open Store

variable {k : Nat}

/-- **One effect** leaves a tree that can be built, if it does not append to an element of another tree. -/
theorem Effect.grown {a b : Scene} {ds : List Deed} (h : Effect a ds b) (hw : a.store.Wired [])
    (hds : Deed.strayed k ∉ ds) (hgrown : a.store.Grown k) : b.store.Grown k := by
  cases h with
  | extended h => exact h.grown k hgrown
  | strayed n f =>
    have hne : k ≠ n := fun heq => hds (heq ▸ List.mem_cons_self)
    refine hgrown.of_arena (size_trees_modifyArena _ n f) ?_
    unfold modifyArena arena
    rw [tree_modifyTree, if_neg fun h => hne h.1]
  | bound n p hlive halive hfield =>
    have hcommit := commit_rewires (l := []) (lt_of_not_retired _ hlive) (hw.fit n) hlive (hw.scopes n hlive) halive hfield
    exact hcommit.grown hgrown
  | removed n id key h => exact (removeBinding_rewires (a := .left) (l := []) (hw.fit n) h).grown hgrown
  | cleared n id => exact (unbindAll_rewires (a := .left) (l := []) (hw.fit n) id).grown hgrown
  | joined n c hlive hc =>
    have hjoined := listenCollection_rewires (a := .left) (l := []) (lt_of_not_retired _ hlive) (hw.fit n) hlive hc
    exact hjoined.grown hgrown
  | left n => exact (leaveCollections_rewires (a := .left) (l := []) (hw.fit n)).grown hgrown
  | retired n => exact (retire_rewires (l := [])).grown hgrown
  | @rendered s calls n b =>
    dsimp only
    exact grown_render hgrown n b
  | subscribed ch => exact grown_subscribe hgrown ch _
  | delegated scope => exact grown_modifyTree hgrown scope.tree fun _ => rfl
  | drewEvent n => exact grown_modifyTree hgrown n fun _ => rfl
  | dropped g => exact grown_modifyRoster hgrown g.channel _
  | drew ch | finished ch => exact grown_modifyRoster hgrown ch _
  | read | wrote | destroyed | addedBinder | absent | heard | clearedList => exact hgrown

/-- **Any effects** leave one. -/
theorem Effects.grown {a b : Scene} {ds : List Deed} (h : Effects a ds b) (ha : a.Sound) (hds : Deed.strayed k ∉ ds)
    (hgrown : a.store.Grown k) : b.store.Grown k := by
  induction h with
  | refl => exact hgrown
  | tail hfirst hlast ih =>
    have hbefore := ih fun hmem => hds (List.mem_append_left _ hmem)
    exact hlast.grown (hfirst.upkeep ha).2.wired (fun hmem => hds (List.mem_append_right _ hmem)) hbefore

/-- Whether something was appended to an element that a tree does not have. -/
def Deed.isStrayed : Deed → Bool
  | .strayed _ => true
  | _ => false

theorem strayed_not_mem {ds : List Deed} (h : ds.any Deed.isStrayed = false) : Deed.strayed k ∉ ds :=
  fun hmem => List.any_eq_false.mp h _ hmem rfl

namespace Machine

variable {m : Machine}

/-- **The trees of every run can be built**, those aside in which something was appended to an element of another tree. -/
theorem grown_of_walk {turns : List Turn} (h : initial.walk? turns = some m) (hds : Deed.strayed k ∉ initial.deeds turns)
    (hk : k < m.store.trees.size) : (m.store.arena k).Grown := by
  have hnone : initial.store.Grown k := fun hk => absurd hk (Nat.not_lt_zero k)
  exact (walk_does sound_initial h).effects.grown sound_initial.scene hds hnone hk

end Machine

end Databind
