import Databind.Proofs.Ownership

/-!
# `Proofs.Handover` — views whose names change hands

A name that changes hands unmounts the view that it denoted: the view owns nothing any more, and its binder has nothing
of what it owned. So a command that is asked neither to mount nor to unmount a view leaves the view what it owns and
all its names, or takes both (`Workspace.Becomes.view`).

## Main definitions

* `Binder.Rid` — a binder that has nothing of some keys.
* `Store.Unmounted` — a view that was unmounted.
* `Workspace.Spared` — a view that kept what it owns and its names, or was unmounted.
-/

namespace Databind

open Store

/-! ## Unmounting -/

/-- **A binder has nothing of some keys**, and no listeners on collections if those are meant too. -/
structure Binder.Rid (keys : List (RecordId × BindingKey)) (collections : Bool) (b : Binder) : Prop where
  bindings : ∀ id, ∀ x ∈ b.registry.bindingsOf id, (id, x.key) ∉ keys
  guards : collections = true → b.collectionGuards = []

theorem Binder.Released.rid {keys : List (RecordId × BindingKey)} {collections : Bool} {b b' : Binder}
    (h : Released keys collections b b') : b'.Rid keys collections where
  bindings id x hx := by
    rw [h.bindings] at hx
    exact of_decide_eq_true (List.mem_filter.mp hx).2
  guards hcollections := by rw [h.guards, if_pos hcollections]

namespace Store

/-- **A view was unmounted**: it owns nothing, and its binder has nothing of what it owned. -/
structure Unmounted (s s' : Store) (v : Nat) : Prop where
  holdings : (s'.view v).holdings = ([], false)
  rid : (s'.binder (s.view v).binder).Rid (s.view v).owned (s.view v).ownsCollection

variable (s : Store) {v : Nat}

theorem unmounted_unmount (v : Nat) : s.Unmounted (s.unmount v) v where
  holdings := by rw [holdings_unmount, if_pos rfl]
  rid := (s.released_of_unmounting v).rid

/-- What is retired has nothing. -/
theorem rid_retire (n : Nat) (keys : List (RecordId × BindingKey)) (collections : Bool) :
    ((s.retire n).binder n).Rid keys collections := by
  have hempty : ((s.retire n).binder n).registry = [] ∧ ((s.retire n).binder n).collectionGuards = [] := by
    unfold retire
    rw [binder_dropAll, binder_modifyBinder]
    split
    · exact ⟨rfl, rfl⟩
    · next hn =>
      rw [s.binder_of_size_le fun hlt => hn ⟨rfl, hlt⟩]
      exact ⟨rfl, rfl⟩
  refine ⟨fun id x hx => ?_, fun _ => hempty.2⟩
  rw [hempty.1] at hx
  cases hx

end Store

namespace Workspace

variable {w w' : Workspace} {v : Nat}

/-- **Letting go of a view** unmounts it. -/
theorem unmounted_letGo (w : Workspace) (v : Nat) : w.store.Unmounted (w.letGo (.view v)).store v := by
  have hunmounted := w.store.unmounted_unmount v
  constructor
  · have hviews := views_retireUnreached { w with store := w.store.unmount v } (w.store.view v).binder
    exact (congrArg View.holdings (view_of_views hviews v)).trans hunmounted.holdings
  · unfold letGo retireUnreached
    simp only
    split
    · exact hunmounted.rid
    · exact (w.store.unmount v).rid_retire _ _ _

/-- Letting go of anything else leaves a view mounted as it is. -/
theorem holdings_letGo {handle : Handle} (h : handle ≠ .view v) :
    ((w.letGo handle).store.view v).holdings = (w.store.view v).holdings := by
  cases handle with
  | subscription guard => exact congrArg View.holdings (view_of_views (views_dropAll _ _) v)
  | binder n => exact congrArg View.holdings (view_of_views (w.views_retireUnreached n) v)
  | view v' =>
    have hviews := views_retireUnreached { w with store := w.store.unmount v' } (w.store.view v').binder
    have hne : v ≠ v' := fun heq => h (heq ▸ rfl)
    refine (congrArg View.holdings (view_of_views hviews v)).trans ?_
    rw [holdings_unmount, if_neg hne]
  | _ => rfl

theorem view?_eq_ok_iff {name : String} : w.view? name = .ok v ↔ w.handle? name = some (.view v) := by
  unfold view?
  split
  · next v' hhandle => simp [hhandle]
  · next hhandle => simpa using hhandle v

/-- **A view keeps what it owns and its names**, or it was unmounted and has lost a name. -/
def Spared (w w' : Workspace) (v : Nat) : Prop :=
  (w'.store.view v).holdings = (w.store.view v).holdings ∧ (∀ name, w.view? name = .ok v → w'.view? name = .ok v) ∨
    w.store.Unmounted w'.store v ∧ ∃ name, w.view? name = .ok v ∧ w'.view? name ≠ .ok v

/-- **A name that changes hands** unmounts the view that it denoted, and no other. -/
theorem spared_letGo? (w' : Workspace) (hw : w.Named) (h : w.store.SameMounts w'.store) (name : String)
    (hother : ∀ name', name' ≠ name → w'.handle? name' = w.handle? name')
    (hname : v < w.store.views.size → w'.handle? name ≠ some (.view v)) :
    w.Spared (w'.letGo? (w.handle? name)) v := by
  have hnames (name' : String) : (w'.letGo? (w.handle? name)).view? name' = w'.view? name' := by
    simp only [view?, handle?, names_letGo?]
  by_cases hold : w.handle? name = some (.view v)
  · -- the view is let go of, and this was one of its names
    have hbefore := view?_eq_ok_iff.mpr hold
    have hlt := (valid_view? hw hbefore).1
    refine .inr ⟨?_, name, hbefore, fun hafter => hname hlt (view?_eq_ok_iff.mp (hnames name ▸ hafter))⟩
    have hunmounted := w'.unmounted_letGo v
    obtain ⟨howned, hcollection⟩ := Prod.mk.inj (h.holdings v)
    rw [hold]
    refine ⟨hunmounted.holdings, ?_⟩
    rw [← h.binder v hlt, ← howned, ← hcollection]
    exact hunmounted.rid
  · -- something else is let go of, and every name of the view is another one
    refine .inl ⟨?_, fun name' hname' => ?_⟩
    · rw [← h.holdings v]
      cases hhandle : w.handle? name with
      | none => rfl
      | some old => exact holdings_letGo fun heq => hold (heq ▸ hhandle)
    · have hne : name' ≠ name := fun heq => hold (heq ▸ view?_eq_ok_iff.mp hname')
      rw [hnames, view?_eq_ok_iff, hother name' hne]
      exact view?_eq_ok_iff.mp hname'

/-- **A view is left as it is, or unmounted** together with the loss of a name. -/
theorem Becomes.view (hw : w.Named) (h : w.Becomes w') (v : Nat) : w.Spared w' v := by
  cases h with
  | same h => exact .inl ⟨h.holdings v, fun name hname => hname⟩
  | @named s' h name handle hnew =>
    let given : Workspace := ⟨s', (name, handle) :: w.names.filter (·.1 ≠ name)⟩
    refine spared_letGo? given hw h name (fun name' hne => ?_) fun hlt hgiven => ?_
    · rw [handle?, Dict.lookup_cons_ite, if_neg hne, handle?_filter, if_neg hne]
    · -- the name now denotes a view only if that view is new
      rw [handle?, List.lookup_cons_self] at hgiven
      exact absurd hlt (Nat.not_lt.mpr (hnew v (Option.some.inj hgiven)))
  | forgot name =>
    rw [forget_eq]
    let taken : Workspace := { w with names := w.names.filter (·.1 ≠ name) }
    refine spared_letGo? taken hw (.refl _) name (fun name' hne => ?_) fun _ htaken => ?_
    · rw [handle?, handle?_filter, if_neg hne]
    · rw [handle?, handle?_filter, if_pos rfl] at htaken
      cases htaken

end Workspace

end Databind
