import Databind.Proofs.Run

/-!
# `Proofs.Possession` — who changes what a view owns

Mounting a view gives it bindings and collection listeners to own, unmounting takes them from it, and nothing else
ever changes what a view owns. `Store.views_…` say so of each operation. A command changes the store, and then at most
one name: it is given to something, or taken away (`Workspace.Becomes`). What the name denoted is let go of, and if that
is a view, it is unmounted. So every view owns what it owned, or nothing (`Store.Lets`).

## Main definitions

* `View.holdings` — what a view owns.
* `Store.SameMounts` — every view owns what it owned.
* `Store.Lets` — nobody owns more than before.
* `Workspace.Becomes` — a workspace in which a name may have changed hands.
* `Machine.commandOf` — the command that a turn carries out.
-/

namespace Databind

open Store

/-- What a view owns: keys of bindings, and whether also the listeners on a collection. -/
def View.holdings (x : View) : List (RecordId × BindingKey) × Bool := (x.owned, x.ownsCollection)

namespace Store

variable (s : Store)

/-! ## Operations that touch no view -/

/-- Notices are in the journal. -/
theorem views_logAll (notices : List Notice) : (s.logAll notices).views = s.views := by
  induction notices generalizing s with
  | nil => rfl
  | cons notice rest ih => exact ih _

/-- Rosters are kept with records, collections, trees and free lists, and not with views. -/
theorem views_modifyRoster (ch : Channel) (f : {α : Type} → Roster α → Roster α) :
    (s.modifyRoster ch f).views = s.views := by cases ch <;> rfl

/-- Guards are dropped from rosters. -/
theorem views_dropAll (gs : List Guard) : (s.dropAll gs).views = s.views := by
  induction gs generalizing s with
  | nil => rfl
  | cons g rest ih => exact (ih _).trans (s.views_modifyRoster g.channel _)

theorem views_subscribe (ch : Channel) (l : Listener) : (s.subscribe ch l).1.views = s.views := by cases ch <;> rfl

theorem views_notify (ch : Channel) (signal : Signal) : (s.notify ch signal).1.views = s.views :=
  s.views_modifyRoster ch _

theorem views_finish (ch : Channel) (ids : List Nat) : (s.finish ch ids).views = s.views :=
  s.views_modifyRoster ch _

/-- A query leaves a notice at most. -/
theorem views_select (scope : Scope) (text : String) : (s.select scope text).1.views = s.views := by
  unfold select
  split
  · rfl
  · split <;> rfl

theorem views_delegate (scope : Scope) (event text : String) (handler : EventHandler) :
    (s.delegate scope event text handler).1.views = s.views := by
  unfold delegate
  split
  · rfl
  · split <;> rfl

/-- **Rendering** paints on a tree. -/
theorem views_render (n : Nat) (b : Binding) : (s.render n b).views = s.views := by
  have hselect : ((s.observe (.query b.key.selector)).select (s.binder n).scope b.key.selector).1.views = s.views :=
    views_select _ _ _
  unfold render
  simp only
  split
  · simpa only [log] using hselect
  · simpa only [modifyArena, modifyTree, log] using hselect

theorem views_renderAll (n : Nat) (bs : List Binding) : (s.renderAll n bs).views = s.views := by
  induction bs generalizing s with
  | nil => rfl
  | cons b rest ih =>
    rw [renderAll_cons]
    exact (ih _).trans (s.views_render n b)

/-- Opening an entry subscribes, and changes a binder. -/
theorem views_opened (n : Nat) (p : Prepared) : (s.opened n p).views = s.views := by
  have hwarn : ∀ config, (s.warnMissing config p.record p.normalized.triggers).views = s.views := by
    intro config
    unfold warnMissing
    split
    · exact s.views_logAll _
    · rfl
  have hlisten : ∀ s : Store, (s.listen n p.record).views = s.views := fun s =>
    (views_subscribe _ (.requests p.record) (.repaintAll n p.record)).trans
      (s.views_subscribe (.changes p.record) (.repaint n p.record))
  unfold opened
  simp only
  split
  · exact hwarn _
  · exact (hlisten _).trans (hwarn _)

/-- The handler of a two-way binding is attached to a tree. -/
theorem views_listenBack (n : Nat) (p : Prepared) : (s.listenBack n p).1.views = s.views := by
  unfold listenBack
  split
  · exact views_delegate (s.observe _) _ _ _ _
  · rfl

/-- A binding is put into the registry of a binder. -/
theorem views_register (n : Nat) (b : Binding) : (s.register n b).views = s.views := by
  unfold register
  simp only
  split
  · exact views_dropAll _ _
  · rfl

/-- **Putting a binding into effect** changes its binder, rosters and a tree. -/
theorem views_commit (n : Nat) (p : Prepared) : (s.commit n p).views = s.views := by
  have hregister := ((views_register ((s.opened n p).listenBack n p).1 n
    (Prepared.binding p ((s.opened n p).listenBack n p).2)).trans (views_listenBack _ n p)).trans (s.views_opened n p)
  rw [commit_eq]
  simp only
  split
  · exact (views_render _ _ _).trans hregister
  · exact hregister

theorem views_commitAll (n : Nat) (ps : List Prepared) : (s.commitAll n ps).views = s.views := by
  induction ps generalizing s with
  | nil => rfl
  | cons p rest ih => exact (ih _).trans (s.views_commit n p)

/-- A binding that is made directly is nobody's: no view comes to own it. -/
theorem views_bind (n : Nat) (id : RecordId) (property : Property) (key : BindingKey) (twoWay : TwoWay)
    (autoRender : Bool) : (s.bind n id property key twoWay autoRender).1.views = s.views := by
  unfold Store.bind
  split
  · exact s.views_commit n _
  · rfl

theorem views_removeBinding (n : Nat) (id : RecordId) (key : BindingKey) :
    (s.removeBinding n id key).views = s.views := views_dropAll _ _

/-- **A key that is unbound directly** stays on the list of the view that owns it, if one does. -/
theorem views_unbind (n : Nat) (id : RecordId) (key : BindingKey) : (s.unbind n id key).views = s.views := by
  unfold unbind
  simp only
  split
  · rfl
  · split
    · rfl
    · split <;> exact views_removeBinding _ _ _ _

/-- The same for all keys of a record, or of every record. -/
theorem views_unbindAll (n : Nat) (id : Option RecordId) : (s.unbindAll n id).views = s.views :=
  (views_dropAll _ _).trans (views_logAll _ _)

/-- A binder leaves its collections, and a view that owned them is not told. -/
theorem views_leaveCollections (n : Nat) : (s.leaveCollections n).views = s.views := views_dropAll _ _

theorem views_detach (n : Nat) : (s.detach n).views = s.views := by
  unfold detach
  simp only
  rw [views_leaveCollections]
  split <;> exact s.views_unbindAll n none

/-- What is released is taken from the binder; that the view owns it no more is said by unmounting. -/
theorem views_release (n : Nat) (keys : List (RecordId × BindingKey)) (collections : Bool) :
    (s.release n keys collections).views = s.views := by
  unfold release
  simp only
  generalize hkeys : keys.foldl _ (s, 0) = released
  have hreleased : released.1.views = s.views := by
    rw [← hkeys]
    refine List.foldlRecOn (motive := fun t : Store × Nat => t.1.views = s.views) keys _ rfl fun t ht entry _ => ?_
    split
    · exact (t.1.views_removeBinding n entry.1 entry.2).trans ht
    · exact ht
  split
  · exact (views_leaveCollections _ _).trans hreleased
  · exact hreleased

/-- A binder that retires leaves its views alone. -/
theorem views_retire (n : Nat) : (s.retire n).views = s.views := views_dropAll _ _

theorem views_listenCollection (n c : Nat) : (s.listenCollection n c).views = s.views :=
  (views_subscribe _ (.resets c) (.dropAll n)).trans (s.views_subscribe (.removals c) (.dropMember n))

/-- **A map that is attached directly** is nobody's. -/
theorem views_attach (n : Nat) (source : Source) (map : BindingMap) (autoRender : Option Bool) :
    (s.attach n source map autoRender).1.views = s.views := by
  have hreplace : ∀ (s : Store) (ps : List Prepared), ((s.detach n).commitAll n ps).views = s.views :=
    fun s ps => (views_commitAll _ n ps).trans (s.views_detach n)
  unfold attach
  split
  · rfl
  · cases source with
    | none => rfl
    | record id =>
      simp only [attachRecord]
      split
      · rfl
      · exact hreplace s _
    | collection c =>
      simp only [attachCollection]
      split
      · rfl
      · split
        · rfl
        · exact (views_listenCollection _ n c).trans (hreplace (s.log _) _)

/-- **Listeners of a binder** change the binder, whichever notification they hear. -/
theorem views_react (listener : Listener) (signal : Signal) : (Session.react s listener signal).views = s.views := by
  unfold Session.react
  split
  · split
    · rfl
    · unfold onChange
      simp only
      split
      · rfl
      · exact s.views_renderAll _ _
  · split
    · rfl
    · exact views_renderAll (s.log _) _ _
  · split
    · rfl
    · exact views_unbindAll (s.log _) _ _
  · split
    · rfl
    · exact views_detach (s.log _) _
  · rfl

/-- A write changes a record, and draws up call lists. -/
theorem views_write (id : RecordId) (entries : List (String × Value)) : (s.write id entries).1.views = s.views := by
  have hstored : (s.stored id entries).views = s.views :=
    (views_logAll _ _).trans
      (List.foldlRecOn (motive := fun t : Store => t.views = s.views) _ _ rfl fun _ ht _ _ => ht)
  cases halive : (s.record id).alive with
  | false =>
    rw [write_of_dead halive]
    rfl
  | true =>
    cases hchanged : ((s.record id).batch entries).changed.isEmpty with
    | true =>
      rw [write_of_unchanged halive hchanged]
      exact hstored
    | false =>
      rw [write_of_changed halive hchanged]
      exact (views_notify _ _ (.changed ((s.record id).batch entries).changed)).trans hstored

theorem views_writeBack (tree : Nat) (event : String) (context : WriteBack) (x : Nat) :
    (s.writeBack tree event context x).1.views = s.views := views_write (s.log _) _ _

/-- A removal changes a collection. -/
theorem views_removeMember (c : Nat) (id : RecordId) : (s.removeMember c id).1.views = s.views := by
  unfold removeMember
  split
  · exact views_notify ((s.modifyCollection c fun x => { x with members := x.members.erase id }).log _) _ (.removed id)
  · rfl

/-- A reset changes a collection. -/
theorem views_resetMembers (c : Nat) (members : List RecordId) :
    (s.resetMembers c members).1.views = s.views :=
  views_notify ((s.modifyCollection c fun x => { x with members }).log _) _ .reset

/-! ## What views own -/

variable {s} {s' s'' : Store}

theorem view_of_views (h : s'.views = s.views) (v : Nat) : s'.view v = s.view v := by simp only [view, h]

/-- A view that is not there owns nothing. -/
theorem view_of_size_le {v : Nat} (h : ¬v < s.views.size) : s.view v = default := by
  rw [view, Array.getD_eq_getD_getElem?, Array.getElem?_eq_none (Nat.le_of_not_lt h)]
  rfl

/-- **Every view stays on its binder, and owns what it owned.** -/
structure SameMounts (s s' : Store) : Prop where
  binder : ∀ v < s.views.size, (s'.view v).binder = (s.view v).binder
  holdings : ∀ v, (s'.view v).holdings = (s.view v).holdings

namespace SameMounts

theorem of_views (h : s'.views = s.views) : s.SameMounts s' :=
  ⟨fun v _ => congrArg View.binder (view_of_views h v), fun v => congrArg View.holdings (view_of_views h v)⟩

theorem refl (s : Store) : s.SameMounts s := of_views rfl

/-- New views own nothing when they are made, and may own something later: the count must not go down. -/
theorem trans (h : s.SameMounts s') (hsize : s.views.size ≤ s'.views.size) (h' : s'.SameMounts s'') :
    s.SameMounts s'' where
  binder v hv := (h'.binder v (Nat.lt_of_lt_of_le hv hsize)).trans (h.binder v hv)
  holdings v := (h'.holdings v).trans (h.holdings v)

end SameMounts

/-- A view that is made owns nothing. -/
theorem sameMounts_addView (s : Store) (n : Nat) (source : Source) (map : BindingMap) :
    s.SameMounts (s.addView (.ofBinder n source map)) where
  binder v hv := by simp only [view, addView, getD_push_of_lt _ _ _ hv]
  holdings v := by
    by_cases hv : v = s.views.size
    · rw [view_of_size_le (Nat.not_lt.mpr (Nat.le_of_eq hv.symm)), view, addView, getD_push, if_pos hv]
      rfl
    · rw [view, addView, getD_push, if_neg hv]
      rfl

/-- A view is given another map or another source: that changes nothing about what it owns. -/
theorem sameMounts_modifyView (s : Store) (v : Nat) {f : View → View} (hbinder : ∀ x, (f x).binder = x.binder)
    (hholdings : ∀ x, (f x).holdings = x.holdings) : s.SameMounts (s.modifyView v f) := by
  constructor
  · intro v' _
    rw [view_modifyView]
    split
    · next hv => rw [hv.1, hbinder]
    · rfl
  · intro v'
    rw [view_modifyView]
    split
    · next hv => rw [hv.1, hholdings]
    · rfl

/-- **Unmounting** takes from a view what it owns, whether or not the binder still had it. -/
theorem views_unmount (s : Store) (v : Nat) :
    (s.unmount v).views = (s.modifyView v fun x => { x with owned := [], ownsCollection := false }).views := by
  unfold unmount
  simp only
  split
  · exact views_release _ _ _ _
  · rfl

/-- **Unmounting** takes from a view what it owns, and from no other. -/
theorem holdings_unmount (s : Store) (v v' : Nat) :
    ((s.unmount v).view v').holdings = if v' = v then ([], false) else (s.view v').holdings := by
  rw [view_of_views (s.views_unmount v) v', view_modifyView]
  by_cases hsame : v' = v
  · rw [if_pos hsame, hsame]
    by_cases hv : v < s.views.size
    · rw [if_pos ⟨rfl, hv⟩]
      rfl
    · rw [if_neg fun hboth => hv hboth.2, view_of_size_le hv]
      rfl
  · rw [if_neg fun hboth => hsame hboth.1, if_neg hsame]

/-- **Nobody owns more than before**: every view owns what it owned, or nothing. -/
def Lets (s s' : Store) : Prop :=
  ∀ v, (s'.view v).holdings = (s.view v).holdings ∨ (s'.view v).holdings = ([], false)

namespace Lets

theorem of_views (h : s'.views = s.views) : s.Lets s' := fun v => .inl (congrArg View.holdings (view_of_views h v))

theorem refl (s : Store) : s.Lets s := of_views rfl

theorem trans (h : s.Lets s') (h' : s'.Lets s'') : s.Lets s'' := fun v =>
  (h' v).elim (fun hsame => by rw [hsame]; exact h v) .inr

end Lets

/-- Who owns what it owned owns no more. -/
theorem SameMounts.lets (h : s.SameMounts s') : s.Lets s' := fun v => .inl (h.holdings v)

/-- The view that is unmounted owns nothing any more, and every other owns what it owned. -/
theorem lets_unmount (s : Store) (v : Nat) : s.Lets (s.unmount v) := by
  intro v'
  rw [holdings_unmount]
  split
  · exact .inr rfl
  · exact .inl rfl

/-- A view that can be mounted on something: there is a source, there is a map, and attaching it succeeds. -/
structure Mountable (s : Store) (v : Nat) : Prop where
  source : (s.view v).source ≠ .none
  map : (s.view v).bindings.isEmpty = false
  succeeds : (s.mount v).2 = none

/-- What a mount attaches. -/
def attached (s : Store) (v : Nat) : Store :=
  (s.attach (s.view v).binder (s.view v).source (s.view v).bindings (some false)).1

/-- The first half of mounting attaches the map; it is not said yet who owns it. -/
theorem views_attached (s : Store) (v : Nat) : (s.attached v).views = s.views := s.views_attach _ _ _ _

/-- **A mount** attaches the map, and the view owns what its binder then holds. -/
theorem mount_of_mountable {v : Nat} (h : s.Mountable v) :
    (s.attach (s.view v).binder (s.view v).source (s.view v).bindings (some false)).2 = none ∧
      (s.mount v).1 = (s.attached v).modifyView v fun x =>
        { x with
          owned := ((s.attached v).binder (s.view v).binder).keys
          ownsCollection := (s.view v).source.isCollection } := by
  have hok := h.succeeds
  unfold mount at hok ⊢
  unfold attached
  simp only at hok ⊢
  split at hok
  · cases hok
  · next s' heq =>
    simp only [heq, h.map, h.source, Bool.false_or, decide_false, Bool.false_eq_true, if_false, true_and]

/-- **A view that is mounted** owns the keys that its binder has then, and its collection if it shows one. -/
theorem view_mount_of_mountable {v : Nat} (h : s.Mountable v) (v' : Nat) :
    (((s.mount v).1.view v').holdings = if v' = v then
      (((s.attached v).binder (s.view v).binder).keys, (s.view v).source.isCollection)
      else (s.view v').holdings) := by
  have hv : v < s.views.size := by
    by_contra hv
    exact h.source (congrArg View.source (view_of_size_le hv))
  rw [(mount_of_mountable h).2, view_modifyView, views_attached]
  by_cases hsame : v' = v
  · rw [if_pos ⟨hsame, hv⟩, if_pos hsame]
    rfl
  · rw [if_neg fun hboth => hsame hboth.1, if_neg hsame, view_of_views (s.views_attached v)]

/-- A mount that attaches nothing changes no view. -/
theorem views_mount {v : Nat} (h : ¬s.Mountable v) : (s.mount v).1.views = s.views := by
  have hattach := s.views_attached v
  -- if the attach succeeds nonetheless, there is no source or no map, and the view is given nothing
  have hunmountable : ∀ s', s.attach (s.view v).binder (s.view v).source (s.view v).bindings (some false) = (s', none) →
      ((s.view v).bindings.isEmpty || decide ((s.view v).source = .none)) = true := by
    intro s' heq
    by_contra hsome
    rw [Bool.or_eq_true, not_or, Bool.not_eq_true, decide_eq_true_eq] at hsome
    refine h ⟨hsome.2, hsome.1, ?_⟩
    unfold mount
    simp only [heq, hsome.1, hsome.2, Bool.false_or, decide_false, Bool.false_eq_true, if_false]
  unfold attached at hattach
  unfold mount
  simp only
  split
  · next heq =>
    rw [heq] at hattach
    exact hattach
  · next s' heq =>
    rw [heq] at hattach
    rw [if_pos (hunmountable s' heq)]
    exact hattach

/-- A mount changes what a view owns only if it is that view's, and attaches something. -/
theorem holdings_mount (s : Store) {v v' : Nat} (h : s.Mountable v' → v ≠ v') :
    ((s.mount v').1.view v).holdings = (s.view v).holdings := by
  by_cases hmountable : s.Mountable v'
  · rw [view_mount_of_mountable hmountable, if_neg (h hmountable)]
  · exact congrArg View.holdings (view_of_views (views_mount hmountable) v)

end Store

/-! ## Commands -/

namespace Workspace

/-- Somebody subscribes at a site. -/
theorem views_subscribeAt (w : Workspace) (k : Nat) (site : Site) {result : Store × Option Guard}
    (h : w.subscribeAt k site = .ok result) : result.1.views = w.store.views := by
  obtain ⟨ch, hsite, rfl⟩ | ⟨tree, event, selector, scope, -, -, rfl⟩ := subscribeAt_eq_ok h
  · cases ch <;> rfl
  · exact views_delegate _ _ _ _ _

/-- **What becomes of a workspace**: its store changes, but for what views own, and then a name is given to something
or taken away, if at all. A view that is given a name is a new one. -/
inductive Becomes (w : Workspace) : Workspace → Prop
  | same {s' : Store} (h : w.store.SameMounts s') : Becomes w (w.withStore s')
  | named {s' : Store} (h : w.store.SameMounts s') (name : String) (handle : Handle)
    (hnew : ∀ v, handle = .view v → w.store.views.size ≤ v) : Becomes w ((w.withStore s').assign name handle)
  | forgot (name : String) : Becomes w (w.forget name).1

variable {w w' : Workspace}

/-- A store with the same views, and the names as they were. -/
theorem becomes_of_views {s' : Store} (h : s'.views = w.store.views) : w.Becomes (w.withStore s') := .same (.of_views h)

theorem Becomes.refl (w : Workspace) : w.Becomes w := becomes_of_views (w := w) rfl

/-- A name for something that is no view. -/
theorem becomes_assign (s' : Store) (h : s'.views = w.store.views) (name : String) {handle : Handle}
    (hhandle : ∀ v, handle ≠ .view v) : w.Becomes ((w.withStore s').assign name handle) :=
  .named (.of_views h) name handle fun v hv => absurd hv (hhandle v)

/-- A binder that no name reaches retires. -/
theorem views_retireUnreached (w : Workspace) (n : Nat) : (w.retireUnreached n).store.views = w.store.views := by
  unfold retireUnreached
  split
  · rfl
  · exact views_retire _ n

/-- **What a name denoted is let go of**: a view is unmounted, anything else leaves views alone. -/
theorem lets_letGo (w : Workspace) (h : Handle) : w.store.Lets (w.letGo h).store := by
  cases h with
  | subscription guard => exact .of_views (views_dropAll _ _)
  | binder n => exact .of_views (w.views_retireUnreached n)
  | view v =>
    have hretired := views_retireUnreached { w with store := w.store.unmount v } (w.store.view v).binder
    exact (w.store.lets_unmount v).trans (.of_views hretired)
  | _ => exact .refl _

/-- A name is given to something, and what it denoted is let go of. -/
theorem lets_assign (w : Workspace) (name : String) (h : Handle) : w.store.Lets (w.assign name h).store := by
  unfold assign
  cases w.handle? name with
  | none => exact .refl _
  | some old => exact lets_letGo { w with names := (name, h) :: w.names.filter (·.1 ≠ name) } old

/-- A name is taken away, and what it denoted is let go of. -/
theorem lets_forget (w : Workspace) (name : String) : w.store.Lets (w.forget name).1.store := by
  unfold forget
  split
  · next h _ => exact lets_letGo { w with names := w.names.filter (·.1 ≠ name) } h
  · exact .refl _

/-- Whatever a command does but mount a view, nobody owns more after it. -/
theorem Becomes.lets (h : w.Becomes w') : w.store.Lets w'.store := by
  cases h with
  | same h => exact h.lets
  | named h name handle _ => exact h.lets.trans (lets_assign _ name handle)
  | forgot name => exact lets_forget w name

/-- A command whose lookup fails does nothing. -/
theorem becomes_found {α : Type} {found : Except Outcome α} {go : α → Workspace × List Task}
    (h : ∀ a, w.Becomes (go a).1) : w.Becomes (w.withFound found go).1 := by
  cases found with
  | ok a => exact h a
  | error outcome => exact .refl w

/-- A command whose argument cannot be built does nothing. -/
theorem becomes_built {α : Type} {built : Except BindError α} {go : α → Workspace × List Task}
    (h : ∀ a, w.Becomes (go a).1) : w.Becomes (w.withBuilt built go).1 := by
  cases built with
  | ok a => exact h a
  | error e => exact .refl w

/-- The element of a command is looked for before anything else is done. -/
theorem becomes_element {ref : ElementRef} {go : Workspace → Nat → Nat → Workspace × List Task}
    (h : ∀ s' : Store, s'.views = w.store.views → ∀ tree x, w.Becomes (go (w.withStore s') tree x).1) :
    w.Becomes (w.withElement ref go).1 := by
  cases ref with
  | saved name =>
    simp only [withElement]
    split
    · exact h w.store rfl _ _
    · exact .refl w
  | first tree selector =>
    refine becomes_found fun scope => ?_
    have hselect := views_select w.store scope selector
    generalize w.store.select scope selector = selected at hselect
    obtain ⟨store, found⟩ := selected
    cases found with
    | nil => exact becomes_of_views hselect
    | cons x rest => exact h store hselect _ _

end Workspace

open Workspace

section

variable {w : Workspace}

/-- Commands to records: only making one gives a name. -/
theorem RecordCommand.becomes (command : RecordCommand) : w.Becomes (command.perform w).1 := by
  cases command with
  | make as fields => exact becomes_assign (w.store.addRecord _) rfl as (by simp)
  | write record entries => exact becomes_found fun id => becomes_of_views (views_write _ _ _)
  | destroy record | install record | clearValidator record => exact becomes_found fun id => becomes_of_views rfl
  | get | has | state | requestRender => exact becomes_found fun id => .refl w

/-- Commands to collections: only making one gives a name. -/
theorem CollectionCommand.becomes (command : CollectionCommand) : w.Becomes (command.perform w).1 := by
  cases command with
  | make as members => exact becomes_found fun ids => becomes_assign (w.store.addCollection _) rfl as (by simp)
  | add collection record => exact becomes_found fun c => becomes_found fun id => becomes_of_views rfl
  | remove collection member =>
    exact becomes_found fun c => becomes_found fun id => becomes_of_views (views_removeMember _ _ _)
  | reset collection members =>
    exact becomes_found fun c => becomes_found fun ids => becomes_of_views (views_resetMembers _ _ _)
  | reorder collection order => exact becomes_found fun c => becomes_of_views rfl
  | listMembers | size | atIndex | find => exact becomes_found fun c => .refl w
  | resolve => exact becomes_found fun c => becomes_built fun id => .refl w
  | expand => exact becomes_found fun c => becomes_built fun map => becomes_built fun plan => .refl w

/-- Commands to binders: making one and cloning a handle give names. -/
theorem BinderCommand.becomes (command : BinderCommand) : w.Becomes (command.perform w).1 := by
  cases command with
  | make as tree config =>
    exact becomes_found fun scope => becomes_built fun config =>
      becomes_assign (w.store.addBinder (.ofScope scope config)) rfl as (by simp)
  | clone as binder => exact becomes_found fun n => becomes_assign w.store rfl as (by simp)
  | bind =>
    exact becomes_found fun n => becomes_found fun id => becomes_built fun p => becomes_of_views (views_bind ..)
  | unbind => exact becomes_found fun n => becomes_found fun id => becomes_of_views (views_unbind _ _ _ _)
  | unbindAll => exact becomes_found fun n => becomes_found fun id => becomes_of_views (views_unbindAll _ _ _)
  | render => exact becomes_found fun n => becomes_found fun id => becomes_of_views (views_renderAll _ _ _)
  | attach =>
    exact becomes_found fun n => becomes_found fun source => becomes_built fun map => becomes_of_views (views_attach ..)
  | detach => exact becomes_found fun n => becomes_of_views (views_detach _ _)
  | observing => exact becomes_found fun n => becomes_found fun id => .refl w
  | state | settings => exact becomes_found fun n => .refl w
  | query binder selector =>
    refine becomes_found fun n => ?_
    have hselect := views_select (w.store.observe (.query selector)) (w.store.binder n).scope selector
    generalize (w.store.observe (.query selector)).select (w.store.binder n).scope selector = selected at hselect ⊢
    exact becomes_of_views hselect

/-- A new view owns nothing, and gets a name. -/
theorem ViewCommand.becomes_place (s' : Store) (h : s'.views = w.store.views) (as : String) (n : Nat)
    (source : Source) (map : BindingMap) : w.Becomes (place (w.withStore s') as n source map).1 := by
  have hsize : w.store.views.size ≤ s'.views.size := Nat.le_of_eq (congrArg Array.size h).symm
  refine .named ((SameMounts.of_views h).trans hsize (s'.sameMounts_addView n source map)) as _ fun v hv => ?_
  cases hv
  exact hsize

/-- **A command on a view** mounts it, unmounts it, or leaves it mounted as it is. -/
theorem ViewCommand.becomes {command : ViewCommand} (hmount : ∀ name, command ≠ .mount name)
    (hunmount : ∀ name, command ≠ .unmount name) : w.Becomes (command.perform w).1 := by
  cases command with
  | make as host source map =>
    refine becomes_found fun source => ?_
    cases host with
    | shared binder =>
      exact becomes_found fun n => becomes_built fun map => becomes_place w.store rfl as n source map
    | fresh tree config =>
      exact becomes_found fun scope => becomes_built fun config => becomes_built fun map =>
        becomes_place (w.store.addBinder (.ofScope scope config)) rfl as _ source map
  | mount name => exact absurd rfl (hmount name)
  | unmount name => exact absurd rfl (hunmount name)
  | render view => exact becomes_found fun v => becomes_of_views (views_renderAll _ _ _)
  | state view => exact becomes_found fun v => .refl w
  | setSource view source =>
    exact becomes_found fun v => becomes_found fun source =>
      .same (w.store.sameMounts_modifyView v (fun _ => rfl) fun _ => rfl)
  | setBindings view map =>
    exact becomes_found fun v => becomes_built fun map =>
      .same (w.store.sameMounts_modifyView v (fun _ => rfl) fun _ => rfl)
  | handle as view => exact becomes_found fun v => becomes_assign w.store rfl as (by simp)

/-- Commands to trees: what is made, saved or appended gets a name. -/
theorem TreeCommand.becomes (command : TreeCommand) : w.Becomes (command.perform w).1 := by
  cases command with
  | make as spec => exact becomes_assign (w.store.addTree _) rfl as (by simp)
  | subtree as tree selector =>
    refine becomes_found fun scope => ?_
    have hselect := views_select w.store scope selector
    generalize w.store.select scope selector = selected at hselect
    obtain ⟨store, found⟩ := selected
    cases found with
    | nil => exact becomes_of_views hselect
    | cons x rest => exact becomes_assign _ hselect as (by simp)
  | save as tree selector nth =>
    refine becomes_found fun scope => ?_
    have hselect := views_select w.store scope selector
    simp only
    split
    · exact becomes_assign _ hselect as (by simp)
    · exact becomes_of_views hselect
  | select tree selector | trigger tree event selector =>
    refine becomes_found fun scope => ?_
    have hselect := views_select w.store scope selector
    generalize w.store.select scope selector = selected at hselect ⊢
    exact becomes_of_views hselect
  | append as parent tree spec =>
    exact becomes_found fun scope => becomes_element fun s' h _ x =>
      becomes_assign (s'.modifyArena scope.tree _) h as (by simp)
  | look element aspects | readBack element attr => exact becomes_element fun s' h _ _ => becomes_of_views h
  | change element aspect value =>
    refine becomes_element fun s' h tree x => ?_
    split
    · exact becomes_of_views h
    · exact becomes_of_views h
  | paint element attr value => exact becomes_element fun s' h _ _ => becomes_of_views h
  | dump tree aspects => exact becomes_found fun scope => becomes_of_views (views_select w.store scope "*")
  | dispatch tree event target =>
    exact becomes_found fun scope => becomes_element fun s' h _ x => becomes_of_views h
  | delegations tree => exact becomes_found fun scope => .refl w

/-- Commands to names: a new free list gets one, and one is dropped. -/
theorem NameCommand.becomes (command : NameCommand) : w.Becomes (command.perform w).1 := by
  cases command with
  | makeList as => exact becomes_assign w.store.addList rfl as (by simp)
  | emit list text => exact becomes_found fun n => becomes_of_views (views_notify _ _ (.emitted text))
  | clear list => exact becomes_found fun n => becomes_of_views rfl
  | listState list => exact becomes_found fun n => .refl w
  | drop name => exact .forgot name
  | inspect name =>
    simp only [perform]
    split <;> exact .refl w

/-- **A command that neither mounts nor unmounts** changes what views own only by a name that changes hands. -/
theorem Session.becomes_perform (s : Session) {c : Command} (hmount : ∀ name, c ≠ .act (.view (.mount name)))
    (hunmount : ∀ name, c ≠ .act (.view (.unmount name))) : s.workspace.Becomes (s.perform c).1.workspace := by
  cases c with
  | act action =>
    cases action with
    | tree command => exact command.becomes
    | record command => exact command.becomes
    | collection command => exact command.becomes
    | binder command => exact command.becomes
    | view command =>
      exact ViewCommand.becomes (fun name heq => hmount name (heq ▸ rfl)) fun name heq => hunmount name (heq ▸ rfl)
    | name command => exact command.becomes
  | listen site as tag script limit =>
    simp only [perform]
    split
    · exact .refl _
    · next store guard hsubscribed => exact becomes_assign store (views_subscribeAt _ _ _ hsubscribed) as (by simp)

/-- **What a command does**: it mounts a view, or unmounts one, or changes what views own only by a name that changes
hands. -/
theorem Session.perform_cases (s : Session) (c : Command) :
    (∃ name v, c = .act (.view (.mount name)) ∧ s.workspace.view? name = .ok v ∧
      (s.perform c).1.workspace = s.workspace.withStore (s.workspace.store.mount v).1) ∨
      (∃ name v, c = .act (.view (.unmount name)) ∧ s.workspace.view? name = .ok v ∧
        (s.perform c).1.workspace = s.workspace.withStore (s.workspace.store.unmount v)) ∨
      s.workspace.Becomes (s.perform c).1.workspace := by
  by_cases hmount : ∃ name, c = .act (.view (.mount name))
  · obtain ⟨name, rfl⟩ := hmount
    simp only [perform, Action.perform, ViewCommand.perform]
    cases hname : s.workspace.view? name with
    | error outcome => exact .inr (.inr (.refl _))
    | ok v => exact .inl ⟨name, v, rfl, hname, rfl⟩
  · by_cases hunmount : ∃ name, c = .act (.view (.unmount name))
    · obtain ⟨name, rfl⟩ := hunmount
      simp only [perform, Action.perform, ViewCommand.perform]
      cases hname : s.workspace.view? name with
      | error outcome => exact .inr (.inr (.refl _))
      | ok v => exact .inr (.inl ⟨name, v, rfl, hname, rfl⟩)
    · exact .inr (.inr (s.becomes_perform (fun name heq => hmount ⟨name, heq⟩) fun name heq => hunmount ⟨name, heq⟩))

end

namespace Session

variable (s : Session)

/-- A callback that is called is noted, and its script comes later. -/
theorem views_call (k : Nat) (report : Report) :
    (s.call k report).1.workspace.store.views = s.workspace.store.views := by
  unfold call
  split
  · rfl
  · split <;> rfl

/-- A listener hears a notification. -/
theorem views_hear (listener : Listener) (signal : Signal) :
    (s.hear listener signal).1.workspace.store.views = s.workspace.store.views := by
  cases listener with
  | callback k => exact s.views_call k _
  | _ => exact views_react s.workspace.store _ signal

/-- **A handler meets an event**: it is called, or writes back. -/
theorem views_meet (tree : Nat) (event : String) (handler : EventHandler) (x : Nat) :
    (s.meet tree event handler x).1.workspace.store.views = s.workspace.store.views := by
  cases handler with
  | callback k => exact s.views_call k _
  | writeBack context => exact views_writeBack s.workspace.store tree event context x

end Session

namespace Machine

variable {m m' : Machine} {t : Turn}

/-! ## Turns -/

/-- The command that a turn carries out, be it the host's or one in a script. -/
def commandOf (m : Machine) : Turn → Option Command
  | .command c => some c
  | .step =>
    match m.stack with
    | .script (c :: _) :: _ => some c
    | _ => none
  | .ask _ | .read => none

/-- **A turn that mounts a view** on something. -/
structure Mounts (m : Machine) (v : Nat) (t : Turn) : Prop where
  command : ∃ name, m.commandOf t = some (.act (.view (.mount name))) ∧ m.session.workspace.view? name = .ok v
  mountable : m.store.Mountable v

/-- A task changes no view. -/
theorem views_runTask (m : Machine) (rest : List Frame) (task : Task) :
    (m.runTask rest task).store.views = m.store.views := by
  cases task with
  | reply outcome => cases rest <;> rfl
  | request id => exact views_notify m.store (.requests id) .render
  | trigger event tree targets count => cases targets <;> rfl
  | notify ch pinned signal waiting =>
    cases waiting with
    | nil => exact views_finish m.store ch pinned
    | cons listener waiting => exact m.session.views_hear listener signal
  | dispatch tree pinned event waiting =>
    cases waiting with
    | nil => exact views_finish m.store (.delegations tree) pinned
    | cons met waiting => exact m.session.views_meet tree event met.1 met.2

/-- **A turn carries out its command, or a task**, or leaves the names and the objects of the store alone. -/
theorem workspace_of_turn (h : m.turn? t = some m') :
    (∃ c, m.commandOf t = some c ∧ m'.session.workspace = (m.session.perform c).1.workspace) ∨
      m.commandOf t = none ∧ ((∃ task rest, m.stack = .task task :: rest ∧ m' = m.runTask rest task) ∨
        m'.session = m.session ∨ m'.session = m.session.emptyJournal) := by
  cases turned_of_turn h with
  | began c hidle => exact .inl ⟨c, rfl, rfl⟩
  | asked cs hstack => exact .inr ⟨rfl, .inr (.inl rfl)⟩
  | read hidle => exact .inr ⟨rfl, .inr (.inr rfl)⟩
  | ended hstack =>
    simp only [commandOf, hstack]
    exact .inr ⟨trivial, .inr (.inl trivial)⟩
  | @performed c cs rest hstack =>
    simp only [commandOf, hstack]
    exact .inl ⟨c, rfl, rfl⟩
  | @ran task rest hstack =>
    simp only [commandOf, hstack]
    exact .inr ⟨trivial, .inl ⟨task, rest, rfl, rfl⟩⟩

/-- A turn carries out its command, or changes no view. -/
theorem store_of_turn (h : m.turn? t = some m') :
    (m.commandOf t = none ∧ m'.store.views = m.store.views) ∨
      ∃ c, m.commandOf t = some c ∧ m'.store = (m.session.perform c).1.workspace.store := by
  obtain ⟨c, hc, hworkspace⟩ | ⟨hnone, hrest⟩ := workspace_of_turn h
  · exact .inr ⟨c, hc, congrArg Workspace.store hworkspace⟩
  · refine .inl ⟨hnone, ?_⟩
    obtain ⟨task, rest, -, rfl⟩ | hsession | hsession := hrest
    · exact m.views_runTask rest task
    · rw [store, hsession]
      rfl
    · rw [store, hsession]
      rfl

/-- A turn that mounts a view mounts it. -/
theorem store_of_mounts {v : Nat} (h : m.turn? t = some m') (hmounts : m.Mounts v t) :
    m'.store = (m.store.mount v).1 := by
  obtain ⟨name, hcommand, hname⟩ := hmounts.command
  obtain ⟨hnone, -⟩ | ⟨c, hc, hstore⟩ := store_of_turn h
  · rw [hcommand] at hnone
    cases hnone
  · cases hcommand.symm.trans hc
    rw [hstore]
    simp only [Session.perform, Action.perform, ViewCommand.perform, hname, withFound, settled]
    rfl

/-- **What a turn does to what a view owns**: unless the turn mounts the view, it owns what it owned, or nothing. -/
theorem holdings_of_turn {v : Nat} (h : m.turn? t = some m') (hmounts : ¬m.Mounts v t) :
    (m'.store.view v).holdings = (m.store.view v).holdings ∨ (m'.store.view v).holdings = ([], false) := by
  obtain ⟨-, hviews⟩ | ⟨c, hc, hstore⟩ := store_of_turn h
  · exact Lets.of_views hviews v
  · rw [hstore]
    obtain ⟨name, v', rfl, hname, hperformed⟩ | ⟨name, v', -, -, hperformed⟩ | hbecomes :=
      m.session.perform_cases c
    · -- another view is mounted, or nothing is attached
      rw [hperformed]
      refine .inl (m.store.holdings_mount fun hmountable heq => ?_)
      exact hmounts ⟨⟨name, hc, heq ▸ hname⟩, heq ▸ hmountable⟩
    · rw [hperformed]
      exact m.store.lets_unmount v' v
    · exact hbecomes.lets v

end Machine

end Databind
