import Databind.Proofs.Operation
import Databind.Session.Machine

/-!
# `Proofs.FreeList` — free lists are out of the reach of binders

Binders subscribe to records, collections and trees, never to a free list, and the only guards they drop are their
own. So whatever they do, free lists stay as they are. `Store.Spares` says it of one operation in the form that
composes: if no binder keeps a guard on a free list, then the operation alters no free list, and still no binder
keeps a guard on one. The lemmas follow the operations.
-/

namespace Databind

/-- The free list that a channel belongs to. -/
def Channel.list? : Channel → Option Nat
  | .list n => some n
  | _ => none

/-! ## The guards of a binder -/

/-- All guards that the entries of a registry own. -/
def Registry.guards (r : Registry) : List Guard := r.flatMap Store.entryGuards

/-- All guards that a binder keeps. -/
def Binder.guards (b : Binder) : List Guard := b.registry.guards ++ b.collectionGuards

namespace Registry

variable {r : Registry} {g : Guard}

/-- An entry owns the guards of its two-way bindings and those of its two listeners. -/
theorem mem_entryGuards {e : Entry} :
    g ∈ Store.entryGuards e ↔ (∃ b ∈ e.bindings, b.guard = some g) ∨ g = e.onChange ∨ g = e.onRequest := by
  simp [Store.entryGuards, Store.handlerGuards]

theorem mem_guards : g ∈ r.guards ↔ ∃ e ∈ r, g ∈ Store.entryGuards e := List.mem_flatMap

/-- The guard of a binding that stands under a key is owned by the registry. -/
theorem mem_guards_of_find? {id : RecordId} {key : BindingKey} {b : Binding} (h : r.find? id key = some b)
    (hg : b.guard = some g) : g ∈ r.guards := by
  unfold find? bindingsOf at h
  cases he : r.entryOf? id with
  | none => simp [he] at h
  | some e =>
    have hb : b ∈ e.bindings := List.mem_of_find?_eq_some (by simpa [he] using h)
    exact mem_guards.mpr ⟨e, (entryOf?_eq_some he).1, mem_entryGuards.mpr (.inl ⟨b, hb, hg⟩)⟩

/-- An entry that is opened brings its own guards, and no others. -/
theorem mem_guards_openEntry {e : Entry} (h : g ∈ (openEntry e r).guards) :
    g ∈ Store.entryGuards e ∨ g ∈ r.guards := by
  obtain ⟨x, hx, hg⟩ := mem_guards.mp h
  rcases List.mem_cons.mp ((openEntry_perm e r).mem_iff.mp hx) with rfl | hx
  · exact .inl hg
  · exact .inr (mem_guards.mpr ⟨x, hx, hg⟩)

/-- Entries that are taken out bring no guards in. -/
theorem mem_guards_filter {p : Entry → Bool} (h : g ∈ guards (r.filter p)) : g ∈ r.guards := by
  obtain ⟨x, hx, hg⟩ := mem_guards.mp h
  exact mem_guards.mpr ⟨x, (List.mem_filter.mp hx).1, hg⟩

/-- A change of one entry adds no guards but those it adds to the entry. -/
theorem mem_guards_modify {id : RecordId} {f : Entry → Entry} {p : Prop}
    (hf : ∀ e, g ∈ Store.entryGuards (f e) → g ∈ Store.entryGuards e ∨ p) (h : g ∈ (r.modify id f).guards) :
    g ∈ r.guards ∨ p := by
  obtain ⟨x, hx, hg⟩ := mem_guards.mp h
  obtain ⟨e, he, rfl⟩ := List.mem_map.mp hx
  split at hg
  · apply (hf e hg).imp_left
    intro hg
    exact mem_guards.mpr ⟨e, he, hg⟩
  · exact .inl (mem_guards.mpr ⟨e, he, hg⟩)

/-- A binding that is put under its key brings the guard of its handler. -/
theorem mem_guards_insert {b : Binding} (h : g ∈ (r.insert b).guards) : g ∈ r.guards ∨ b.guard = some g := by
  refine mem_guards_modify ?_ h
  intro e hg
  rcases mem_entryGuards.mp hg with ⟨x, hx, hguard⟩ | hg
  · rcases List.mem_append.mp hx with hx | hx
    · -- it was there, under another key
      exact .inl (mem_entryGuards.mpr (.inl ⟨x, (List.mem_filter.mp hx).1, hguard⟩))
    · exact .inr (List.mem_singleton.mp hx ▸ hguard)
  · exact .inl (mem_entryGuards.mpr (.inr hg))

/-- A key that is removed brings no guards in. -/
theorem mem_guards_remove {id : RecordId} {key : BindingKey} (h : g ∈ (r.remove id key).guards) : g ∈ r.guards := by
  unfold remove at h
  split at h
  · exact mem_guards_filter h
  · -- nothing is added
    refine (mem_guards_modify (p := False) ?_ h).resolve_right not_false
    intro e hg
    left
    rcases mem_entryGuards.mp hg with ⟨x, hx, hguard⟩ | hg
    · exact mem_entryGuards.mpr (.inl ⟨x, (List.mem_filter.mp hx).1, hguard⟩)
    · exact mem_entryGuards.mpr (.inr hg)

end Registry

/-- A roster of another kind of listener tells the listeners apart if the kind does. -/
theorem Roster.map_injective {α β : Type} {f : α → β} (hf : Function.Injective f) :
    Function.Injective (Roster.map f) := by
  have hentry : Function.Injective fun e : Roster.Entry α => Roster.Entry.mk e.id (f e.listener) e.held e.pins := by
    intro e e' heq
    obtain ⟨hid, hlistener, hheld, hpins⟩ := Roster.Entry.mk.inj heq
    cases e
    cases e'
    exact congr (congr (congr (congrArg _ hid) (hf hlistener)) hheld) hpins
  intro r r' h
  obtain ⟨hentries, hnext⟩ := Roster.mk.inj h
  cases r
  cases r'
  exact congr (congrArg _ (List.map_injective_iff.mpr hentry hentries)) hnext

namespace Store

variable {s s' : Store} {n : Nat}

/-! ## Operations that spare free lists -/

/-- No binder keeps a guard on a free list. -/
def OffLists (s : Store) : Prop := ∀ n, ∀ g ∈ (s.binder n).guards, g.channel.list? = none

/-- **Free lists are spared.** -/
def Spares (s s' : Store) : Prop := s.OffLists → (∀ n, s'.list n = s.list n) ∧ s'.OffLists

/-- Where posts and listeners belong together, no binder has a post on a free list. -/
theorem Wired.offLists {l : List Post} (h : s.Wired l) : s.OffLists := by
  intro n g hg
  have hfit := h.fit n
  rcases List.mem_append.mp hg with hg | hg
  · obtain ⟨e, he, hg⟩ := Registry.mem_guards.mp hg
    have hentry := hfit.entries e he
    rcases Registry.mem_entryGuards.mp hg with ⟨b, hb, hguard⟩ | rfl | rfl
    · rw [(hentry.bindings b hb).channel g hguard]
      rfl
    · rw [hentry.onChange]
      rfl
    · rw [hentry.onRequest]
      rfl
  · obtain ⟨c, hc | hc⟩ := hfit.collections g hg
    · rw [hc]
      rfl
    · rw [hc]
      rfl

namespace Spares

theorem refl (s : Store) : s.Spares s := fun h => ⟨fun _ => rfl, h⟩

/-- **Sparing composes**: the first operation leaves the binders in the state that the second asks for. -/
theorem trans {a b c : Store} (h : a.Spares b) (h' : b.Spares c) : a.Spares c := by
  intro hoff
  obtain ⟨hfirst, hoff'⟩ := h hoff
  obtain ⟨hsecond, hoff''⟩ := h' hoff'
  exact ⟨fun n => (hsecond n).trans (hfirst n), hoff''⟩

/-- What touches neither free lists nor binders. -/
theorem of_same (hlists : s'.lists = s.lists) (hbinders : s'.binders = s.binders) : s.Spares s' := by
  intro hoff
  constructor
  · intro n
    simp only [Store.list, hlists]
  · intro n
    simpa only [Store.binder, hbinders] using hoff n

/-- Whatever else an operation does: free lists are among the rosters that it keeps. -/
theorem of_keeps (h : s.Keeps s') : s.Spares s' := by
  intro hoff
  constructor
  · intro n
    -- the roster of a channel forgets nothing of that of the list
    have hinjective : Function.Injective Hearer.listener := fun _ _ heq => Hearer.listener.inj heq
    exact Roster.map_injective hinjective (h.roster (.list n))
  · intro n
    simpa only [h.binder] using hoff n

theorem of_extends (h : s.Extends s') : s.Spares s' := of_keeps h.toKeeps

end Spares

/-- A change of a binder that takes no guard on a free list. -/
theorem spares_modifyBinder (n : Nat) (f : Binder → Binder)
    (hf : s.OffLists → ∀ g ∈ (f (s.binder n)).guards, g.channel.list? = none) : s.Spares (s.modifyBinder n f) := by
  intro hoff
  refine ⟨fun _ => rfl, ?_⟩
  intro n' g hg
  rw [binder_modifyBinder] at hg
  split at hg
  · exact hf hoff g hg
  · exact hoff n' g hg

/-- Guards are off free lists if a binder keeps them. -/
theorem OffLists.of_registry (h : s.OffLists) {g : Guard} (hg : g ∈ (s.binder n).registry.guards) :
    g.channel.list? = none := h n g (List.mem_append_left _ hg)

/-- A change of a registry that takes no guard on a free list. -/
theorem spares_modifyRegistry (n : Nat) (f : Registry → Registry)
    (hf : s.OffLists → ∀ g ∈ (f (s.binder n).registry).guards, g.channel.list? = none) :
    s.Spares (s.modifyRegistry n f) := by
  apply spares_modifyBinder
  intro hoff g hg
  rcases List.mem_append.mp hg with hg | hg
  · exact hf hoff g hg
  · exact hoff n g (List.mem_append_right _ hg)

/-- A new binder keeps no guards. -/
theorem spares_addBinder (scope : Scope) (config : Config) : s.Spares (s.addBinder (.ofScope scope config)) := by
  intro hoff
  refine ⟨fun _ => rfl, ?_⟩
  intro n g hg
  rw [binder_addBinder] at hg
  split at hg
  · cases hg
  · exact hoff n g hg

/-- A guard that is not on a free list is dropped elsewhere. -/
theorem lists_drop {g : Guard} (h : g.channel.list? = none) : (s.drop g).lists = s.lists := by
  unfold Store.drop modifyRoster
  cases hch : g.channel with
  | list n =>
    rw [hch] at h
    cases h
  | _ => rfl

theorem lists_dropAll {gs : List Guard} (h : ∀ g ∈ gs, g.channel.list? = none) :
    (s.dropAll gs).lists = s.lists := by
  induction gs generalizing s with
  | nil => rfl
  | cons g rest ih =>
    have hrest : ((s.drop g).dropAll rest).lists = (s.drop g).lists :=
      ih fun g' hg' => h g' (List.mem_cons_of_mem _ hg')
    exact hrest.trans (lists_drop (h g List.mem_cons_self))

/-- Then guards are dropped that are not on free lists. -/
theorem Spares.dropAll (h : s.Spares s') {gs : List Guard}
    (hgs : s.OffLists → ∀ g ∈ gs, g.channel.list? = none) : s.Spares (s'.dropAll gs) := by
  intro hoff
  have hdropped : s'.Spares (s'.dropAll gs) := .of_same (lists_dropAll (hgs hoff)) (binders_dropAll gs s')
  exact h.trans hdropped hoff

/-- Somebody subscribes to a record or to a collection. -/
theorem spares_subscribe (ch : Channel) (h : ch.list? = none) (l : Listener) : s.Spares (s.subscribe ch l).1 := by
  cases ch with
  | list n => cases h
  | _ => exact .of_same rfl rfl

/-- The call list that is drawn up pins the listeners of another roster. -/
theorem spares_notify (ch : Channel) (h : ch.list? = none) (signal : Signal) : s.Spares (s.notify ch signal).1 := by
  cases ch with
  | list n => cases h
  | _ => exact .of_same rfl rfl

theorem spares_fire (tree : Nat) (event : String) (x : Nat) : s.Spares (s.fire tree event x).1 := .of_same rfl rfl

/-! ## Making bindings -/

/-- Rendering reads a record, and paints on a tree. -/
theorem spares_render (b : Binding) : s.Spares (s.render n b) := .of_keeps (s.keeps_render n b)

theorem spares_renderAll (bs : List Binding) : s.Spares (s.renderAll n bs) := by
  induction bs generalizing s with
  | nil => exact .refl s
  | cons b rest ih =>
    rw [renderAll_cons]
    exact (spares_render b).trans ih

/-- **A binder listens to a record**: the guards of the new entry are on the two channels of the record. -/
theorem spares_listen (id : RecordId) : s.Spares (s.listen n id) := by
  unfold listen
  have hchanges : s.Spares (s.subscribe (.changes id) (.repaint n id)).1 := spares_subscribe _ rfl _
  have hrequests := hchanges.trans (spares_subscribe (.requests id) rfl (.repaintAll n id))
  refine (hrequests.trans (.of_extends (extends_log _ _ rfl))).trans (spares_modifyRegistry n _ ?_)
  intro hoff g hg
  rcases Registry.mem_guards_openEntry hg with hg | hg
  · -- the new entry owns the two subscriptions just made
    rcases Registry.mem_entryGuards.mp hg with ⟨b, hb, -⟩ | rfl | rfl
    · cases hb
    · rfl
    · rfl
  · exact hoff.of_registry hg

/-- The entry of a record is opened with its first binding. -/
theorem spares_opened (p : Prepared) : s.Spares (s.opened n p) := by
  have hwarn := Spares.of_extends (s.extends_warnMissing (s.binder n).config p.record p.normalized.triggers)
  unfold opened
  simp only
  split
  · exact hwarn
  · exact hwarn.trans (spares_listen _)

/-- The guard of a handler is on the channel of its tree. -/
theorem spares_delegate (scope : Scope) (event text : String) (handler : EventHandler) :
    s.Spares (s.delegate scope event text handler).1 ∧
      ∀ g, (s.delegate scope event text handler).2 = some g → g.channel.list? = none := by
  unfold delegate
  split
  · exact ⟨.of_same rfl rfl, fun g hg => Option.some.inj hg ▸ rfl⟩
  · split
    · exact ⟨.of_same rfl rfl, fun g hg => Option.some.inj hg ▸ rfl⟩
    · exact ⟨.of_extends (s.extends_log _ rfl), fun g hg => by cases hg⟩

/-- The handler of a two-way binding, if there is one. -/
theorem spares_listenBack (p : Prepared) :
    s.Spares (s.listenBack n p).1 ∧ ∀ g, (s.listenBack n p).2 = some g → g.channel.list? = none := by
  unfold listenBack
  split
  · next event field _ _ =>
    have hdelegate := @spares_delegate (s.observe (.delegate event p.key.selector)) (s.binder n).scope event
      p.key.selector (.writeBack ⟨p.record, field, Attribute.classify p.key.attr, p.normalized.negate⟩)
    exact ⟨(Spares.of_extends (s.extends_observe _)).trans hdelegate.1, hdelegate.2⟩
  · exact ⟨.refl s, fun g hg => by cases hg⟩

/-- **A binding is registered**: the guard of the binding that it replaces is dropped. -/
theorem spares_register {b : Binding} (hb : ∀ g, b.guard = some g → g.channel.list? = none) :
    s.Spares (s.register n b) := by
  have hinsert : s.Spares (s.modifyRegistry n (·.insert b)) := by
    apply spares_modifyRegistry
    intro hoff g hg
    exact (Registry.mem_guards_insert hg).elim hoff.of_registry (hb g)
  unfold register
  simp only
  split
  · next old hold =>
    -- the guard of a binding that is replaced was the binder's
    apply (hinsert.trans (.of_extends (extends_log _ _ rfl))).dropAll
    intro hoff g hg
    exact hoff.of_registry (Registry.mem_guards_of_find? hold (Option.mem_toList.mp hg))
  · exact hinsert

/-- A binding is put into effect: the entry, the handler, the registration and the first rendering. -/
theorem spares_commit (p : Prepared) : s.Spares (s.commit n p) := by
  have hback := @spares_listenBack (s.opened n p) n p
  have hregister := ((spares_opened p).trans hback.1).trans (spares_register (n := n)
    (b := Prepared.binding p ((s.opened n p).listenBack n p).2) hback.2)
  rw [commit_eq]
  simp only
  split
  · exact hregister.trans (spares_render _)
  · exact hregister

theorem spares_commitAll (ps : List Prepared) : s.Spares (s.commitAll n ps) := by
  induction ps generalizing s with
  | nil => exact .refl s
  | cons p rest ih =>
    have hrest : (s.commit n p).Spares ((s.commit n p).commitAll n rest) := ih
    exact (spares_commit p).trans hrest

/-- A binding that is refused leaves a notice only. -/
theorem spares_bind (id : RecordId) (property : Property) (key : BindingKey) (twoWay : TwoWay) (autoRender : Bool) :
    s.Spares (s.bind n id property key twoWay autoRender).1 := by
  unfold Store.bind
  split
  · exact spares_commit _
  · exact .refl s

/-! ## Removing bindings -/

/-- **What stands under a key is removed**, and with the last key of a record its two listeners. -/
theorem spares_removeBinding (id : RecordId) (key : BindingKey) : s.Spares (s.removeBinding n id key) := by
  have hremove : s.Spares (s.modifyRegistry n (·.remove id key)) := by
    apply spares_modifyRegistry
    intro hoff g hg
    exact hoff.of_registry (Registry.mem_guards_remove hg)
  unfold removeBinding
  apply hremove.dropAll
  intro hoff g hg
  rcases List.mem_append.mp hg with hg | hg
  · obtain ⟨b, hb, hguard⟩ := List.mem_filterMap.mp hg
    exact hoff.of_registry (Registry.mem_guards_of_find? (Option.mem_toList.mp hb) hguard)
  · split at hg
    · -- the last binding of a record takes the subscriptions to the record along
      cases he : (s.binder n).registry.entryOf? id with
      | none => simp [he] at hg
      | some e =>
        have hpair : g = e.onChange ∨ g = e.onRequest := by simpa [he] using hg
        exact hoff.of_registry (Registry.mem_guards.mpr
          ⟨e, (Registry.entryOf?_eq_some he).1, Registry.mem_entryGuards.mpr (.inr hpair)⟩)
    · cases hg

/-- A key that is not there leaves a notice only. -/
theorem spares_unbind (id : RecordId) (key : BindingKey) : s.Spares (s.unbind n id key) := by
  unfold unbind
  simp only
  split
  · exact .of_extends (s.extends_log _ rfl)
  · split
    · exact .of_extends (s.extends_log _ rfl)
    · split
      · exact (Spares.of_extends ((s.extends_log _ rfl).trans (extends_log _ _ rfl))).trans (spares_removeBinding _ _)
      · exact (Spares.of_extends (s.extends_log _ rfl)).trans (spares_removeBinding _ _)

/-- The guards of whole entries are dropped. -/
theorem spares_unbindAll (id : Option RecordId) : s.Spares (s.unbindAll n id) := by
  have hremove : s.Spares (s.modifyRegistry n fun registry => registry.filter fun e => !id.all (e.record = ·)) := by
    apply spares_modifyRegistry
    intro hoff g hg
    exact hoff.of_registry (Registry.mem_guards_filter hg)
  unfold unbindAll
  have hlogged := hremove.trans (.of_extends (extends_logAll _
    (fun e : Registry.Entry => .detachedAll e.record e.bindings.length)
    ((s.binder n).registry.filter fun e => id.all (e.record = ·)) fun _ => rfl))
  apply hlogged.dropAll
  intro hoff g hg
  exact hoff.of_registry (Registry.mem_guards_filter hg)

/-- The guards of collections are dropped. -/
theorem spares_leaveCollections : s.Spares (s.leaveCollections n) := by
  have hleave : s.Spares (s.modifyBinder n fun b => { b with collectionGuards := [] }) := by
    apply spares_modifyBinder
    intro hoff g hg
    have hregistry : g ∈ (s.binder n).registry.guards := by simpa [Binder.guards] using hg
    exact hoff.of_registry hregistry
  unfold leaveCollections
  apply hleave.dropAll
  intro hoff g hg
  exact hoff n g (List.mem_append_right _ hg)

theorem spares_detach : s.Spares (s.detach n) := by
  unfold detach
  simp only
  split
  · exact (spares_unbindAll none).trans spares_leaveCollections
  · exact ((spares_unbindAll none).trans (.of_extends (extends_log _ _ rfl))).trans spares_leaveCollections

/-- Keys that a view owns are removed one after the other, if they are there still. -/
theorem spares_releaseKeys (count : Nat) (keys : List (RecordId × BindingKey)) :
    s.Spares (keys.foldl (fun (s, count) (id, key) =>
      if ((s.binder n).registry.find? id key).isSome then (s.removeBinding n id key, count + 1)
      else (s, count)) (s, count)).1 := by
  induction keys generalizing s count with
  | nil => exact .refl s
  | cons entry rest ih =>
    rw [List.foldl_cons]
    simp only
    split
    · exact (spares_removeBinding _ _).trans (ih _)
    · exact ih _

theorem spares_release (keys : List (RecordId × BindingKey)) (collections : Bool) :
    s.Spares (s.release n keys collections) := by
  have hkeys := @spares_releaseKeys s n 0 keys
  unfold release
  simp only
  split
  · exact (hkeys.trans (.of_extends (extends_log _ _ rfl))).trans spares_leaveCollections
  · exact hkeys.trans (.of_extends (extends_log _ _ rfl))

/-- A binder that retires drops all its guards. -/
theorem spares_retire : s.Spares (s.retire n) := by
  have hretire : s.Spares (s.modifyBinder n fun b =>
      { b with registry := [], collectionGuards := [], retired := true }) :=
    spares_modifyBinder n _ fun _ _ hg => absurd hg List.not_mem_nil
  unfold retire
  apply hretire.dropAll
  intro hoff
  exact hoff n

/-! ## Attaching -/

/-- **A binder listens to a collection**, on its two channels. -/
theorem spares_listenCollection (c : Nat) : s.Spares (s.listenCollection n c) := by
  unfold listenCollection
  have hremovals : s.Spares (s.subscribe (.removals c) (.dropMember n)).1 := spares_subscribe _ rfl _
  have hresets := hremovals.trans (spares_subscribe (.resets c) rfl (.dropAll n))
  refine hresets.trans (spares_modifyBinder n _ ?_)
  intro hoff g hg
  rcases List.mem_append.mp hg with hg | hg
  · exact hoff.of_registry hg
  · rcases List.mem_append.mp hg with hg | hg
    · exact hoff n g (List.mem_append_right _ hg)
    · rcases List.mem_pair.mp hg with rfl | rfl
      · rfl
      · rfl

/-- A map replaces everything, or is refused and changes nothing. -/
theorem spares_attach (source : Source) (map : BindingMap) (autoRender : Option Bool) :
    s.Spares (s.attach n source map autoRender).1 := by
  unfold attach
  split
  · exact .refl s
  · cases source with
    | none => exact .refl s
    | record id =>
      simp only [attachRecord]
      split
      · exact .refl s
      · exact spares_detach.trans (spares_commitAll _)
    | collection c =>
      simp only [attachCollection]
      split
      · exact .refl s
      · have hlog {notice : Notice} (h : notice.isRendering = false) : s.Spares (s.log notice) :=
          .of_extends (s.extends_log _ h)
        split
        · exact hlog rfl
        · exact (hlog rfl).trans ((spares_detach.trans (spares_commitAll _)).trans (spares_listenCollection c))

/-- A view attaches its map, and then owns what it attached. -/
theorem spares_mount (v : Nat) : s.Spares (s.mount v).1 := by
  have hattach := @spares_attach s (s.view v).binder (s.view v).source (s.view v).bindings (some false)
  unfold mount
  simp only
  split
  · next heq =>
    rw [heq] at hattach
    exact hattach
  · next heq =>
    rw [heq] at hattach
    split
    · exact hattach
    · exact hattach.trans (.of_same rfl rfl)

/-- A view releases what it owns. -/
theorem spares_unmount (v : Nat) : s.Spares (s.unmount v) := by
  have hview {f : View → View} : s.Spares (s.modifyView v f) := .of_same rfl rfl
  unfold unmount
  simp only
  split
  · exact hview.trans (spares_release _ _)
  · exact hview

/-! ## Records, collections and notifications -/

/-- What is left of an operation runs no call list of a free list. -/
def OffCalls (tasks : List Task) : Prop := ∀ t ∈ tasks, ∀ call, t.call? = some call → call.1.list? = none

namespace OffCalls

variable {t : Task} {tasks tasks' : List Task}

theorem nil : OffCalls [] := fun _ ht => absurd ht List.not_mem_nil

theorem append (h : OffCalls tasks) (h' : OffCalls tasks') : OffCalls (tasks ++ tasks') := by
  intro t ht
  exact (List.mem_append.mp ht).elim (h t) (h' t)

/-- A task that runs no call list. -/
theorem silent (ht : t.call? = none) (h : OffCalls tasks) : OffCalls (t :: tasks) := by
  intro t' ht' call hcall
  rcases List.mem_cons.mp ht' with rfl | ht'
  · rw [ht] at hcall
    cases hcall
  · exact h t' ht' call hcall

/-- A task that runs a call list, but not that of a free list. -/
theorem calling {call : Channel × List Nat} (ht : t.call? = some call) (hcall : call.1.list? = none)
    (h : OffCalls tasks) : OffCalls (t :: tasks) := by
  intro t' ht' call' hcall'
  rcases List.mem_cons.mp ht' with rfl | ht'
  · rw [ht] at hcall'
    cases hcall'
    exact hcall
  · exact h t' ht' call' hcall'

theorem reply (outcome : Outcome) : OffCalls [.reply outcome] := nil.silent rfl

end OffCalls

/-- A batch of writes leaves a request at most, and that calls nobody yet. -/
theorem offCalls_requestsOf (id : RecordId) (b : Record.Batch) : OffCalls (requestsOf id b) := by
  unfold requestsOf
  split
  · exact .nil
  · exact OffCalls.nil.silent rfl

/-- **A batch of writes** tells those who listen to the record. -/
theorem spares_write (id : RecordId) (entries : List (String × Value)) :
    s.Spares (s.write id entries).1 ∧ OffCalls (s.write id entries).2 := by
  have hstored : s.Spares (s.stored id entries) :=
    (Spares.of_extends (s.extends_validated id _)).trans (.of_same rfl rfl)
  cases halive : (s.record id).alive with
  | false =>
    rw [write_of_dead halive]
    exact ⟨.of_extends (s.extends_log _ rfl), .nil⟩
  | true =>
    cases hchanged : ((s.record id).batch entries).changed.isEmpty with
    | true =>
      rw [write_of_unchanged halive hchanged]
      exact ⟨hstored, offCalls_requestsOf _ _⟩
    | false =>
      rw [write_of_changed halive hchanged]
      have hnotified := hstored.trans
        (spares_notify (.changes id) rfl (.changed ((s.record id).batch entries).changed))
      exact ⟨hnotified, (offCalls_requestsOf _ _).calling rfl rfl⟩

/-- An edit that is written back is a write of one field. -/
theorem spares_writeBack (tree : Nat) (event : String) (context : WriteBack) (x : Nat) :
    s.Spares (s.writeBack tree event context x).1 ∧ OffCalls (s.writeBack tree event context x).2 := by
  unfold writeBack
  exact ⟨(Spares.of_extends (s.extends_log _ rfl)).trans (spares_write _ _).1, (spares_write _ _).2⟩

/-- Those who listen to the collection are told of a removal. -/
theorem spares_removeMember (c : Nat) (id : RecordId) :
    s.Spares (s.removeMember c id).1 ∧ OffCalls (s.removeMember c id).2 := by
  unfold removeMember
  split
  · exact ⟨.of_same rfl rfl, (OffCalls.reply _).calling rfl rfl⟩
  · exact ⟨.refl s, .reply _⟩

/-- Those who listen to the collection are told of a reset. -/
theorem spares_resetMembers (c : Nat) (members : List RecordId) :
    s.Spares (s.resetMembers c members).1 ∧ OffCalls (s.resetMembers c members).2 :=
  ⟨.of_same rfl rfl, (OffCalls.reply _).calling rfl rfl⟩

/-- **What a binder does when it hears a notification spares free lists.** -/
theorem spares_react (l : Listener) (signal : Signal) : s.Spares (Session.react s l signal) := by
  have hlog {notice : Notice} (h : notice.isRendering = false) : s.Spares (s.log notice) :=
    .of_extends (s.extends_log _ h)
  unfold Session.react
  split
  · split
    · exact .refl s
    · unfold onChange
      simp only
      split
      · exact hlog rfl
      · exact spares_renderAll _
  · split
    · exact .refl s
    · exact (hlog rfl).trans (spares_renderAll _)
  · split
    · exact .refl s
    · exact (hlog rfl).trans (spares_unbindAll _)
  · split
    · exact .refl s
    · exact (hlog rfl).trans spares_detach
  · exact .refl s

end Store

end Databind
