import Databind.Proofs.Independence.OwnOperations

/-!
# `Proofs.Independence.OtherOperations` — operations keep twins alike

A binder other than the stranger does the same in both of two twins: it binds and unbinds, attaches and detaches, and
renders what it has. The lemmas follow the operations of a binder.
-/

namespace Databind.Store

variable {b : Stranger} {s s' : Store} {n : Nat}

/-! ## Rendering -/

/-- Rendering does not depend on the guard of a binding. -/
theorem render_congr (s : Store) (n : Nat) {x x' : Binding} (h : x.unguarded = x'.unguarded) :
    s.render n x = s.render n x' := by
  have hkey : x.key = x'.key := (congrArg Binding.key h :)
  have hrecord : x.record = x'.record := (congrArg Binding.record h :)
  have htarget : x.target = x'.target := (congrArg Binding.target h :)
  have hvalue : x.value = x'.value := (congrArg Binding.value h :)
  unfold Store.render
  rw [hkey, hrecord, htarget, hvalue]

/-- The same for a list of bindings, place by place. -/
theorem renderAll_congr (s : Store) (n : Nat) {xs xs' : List Binding}
    (h : List.Forall₂ (fun x x' => x.unguarded = x'.unguarded) xs xs') : s.renderAll n xs = s.renderAll n xs' := by
  induction h generalizing s with
  | nil => rfl
  | cons hx _ ih => rw [renderAll_cons, renderAll_cons, s.render_congr n hx, ih]

theorem unguarded_binding (p : Prepared) (guard guard' : Option Guard) :
    (Prepared.binding p guard).unguarded = (Prepared.binding p guard').unguarded := rfl

/-- The guard of a subscription, if there is one, is the same on both sides. -/
abbrev SameGuard? (b : Stranger) (s s' : Store) : Option Guard → Option Guard → Prop := Option.Rel (s.SameGuard b s')

namespace Twin

/-- The same elements are selected in any tree but the stranger's. -/
theorem select (h : s.Twin b s') {scope : Scope} (hscope : scope.tree ≠ b.tree) (text : String) :
    (s.select scope text).2 = (s'.select scope text).2 := by
  unfold Store.select
  split
  · rfl
  · split
    · rw [h.arena hscope]
    · rfl

/-- **Rendering a binding**, whichever the binder. -/
theorem render (h : s.Twin b s') (n : Nat) (x : Binding) : Paired b s s' (s.render n x) (s'.render n x) := by
  by_cases hk : (s.binder n).scope.tree = b.tree
  · exact h.aside (h.kept.render hk x) (h.kept'.render (h.scope n ▸ hk) x)
  · have hobserved := h.hushed (.observe s (.query x.key.selector)) (.observe s' (.query x.key.selector))
    have hselect := hobserved.hushed (.select _ (s.binder n).scope x.key.selector)
      (.select _ (s.binder n).scope x.key.selector)
    have hfound := hobserved.twin.select hk x.key.selector
    have hfields := hselect.twin.fields x.record
    unfold Store.render
    simp only
    rw [← h.scope n, ← hfound]
    split
    · exact hselect.hushed (.log _ _) (.log _ _)
    · have hlogged := hselect.hushed (.log _ (.rendered x.record x.key (x.value
        (((s.observe (.query x.key.selector)).select (s.binder n).scope x.key.selector).1.fields x.record))
        ((s.observe (.query x.key.selector)).select (s.binder n).scope x.key.selector).2.length)) (.log _ (.rendered
        x.record x.key (x.value (((s'.observe (.query x.key.selector)).select (s.binder n).scope
        x.key.selector).1.fields x.record)) ((s.observe (.query x.key.selector)).select (s.binder n).scope
        x.key.selector).2.length))
      exact hlogged.trans (hlogged.twin.modifyArena _ fun _ => by rw [hfields])

/-- Rendering the same bindings one after the other. -/
theorem renderAll (h : s.Twin b s') (n : Nat) (xs : List Binding) :
    Paired b s s' (s.renderAll n xs) (s'.renderAll n xs) := by
  induction xs generalizing s s' with
  | nil => exact .refl h
  | cons x rest ih =>
    rw [renderAll_cons, renderAll_cons]
    have hfirst := h.render n x
    exact hfirst.trans (ih hfirst.twin)

/-- Rendering bindings that are the same but for their guards. -/
theorem renderAll_alike (h : s.Twin b s') (n : Nat) {xs xs' : List Binding}
    (hxs : List.Forall₂ (Binding.Alike (s.SameGuard b s')) xs xs') :
    Paired b s s' (s.renderAll n xs) (s'.renderAll n xs') := by
  rw [s'.renderAll_congr n (forall₂_symm (S := fun x x' => x.unguarded = x'.unguarded)
    (fun _ _ hx => hx.unguarded.symm) hxs)]
  exact h.renderAll n xs

/-! ## Making bindings -/

variable (h : s.Twin b s') (hn : n ≠ b.binder)
include h hn

/-- The registry of a binder that is not the stranger, on both sides. -/
theorem registry : (s.binder n).registry.Alike (s.SameGuard b s') (s'.binder n).registry := (h.binder n hn).registry

omit h in
/-- A listener of a binder that is not the stranger. -/
theorem not_own {l : Listener} (hl : l.binder? = some n) : (Hearer.listener l).isOf b.binder = false := by
  simp [Hearer.isOf, hl, hn]

/-- **A binder begins to listen to a record**, on both of its channels. -/
theorem listen {id : RecordId} (hthere : s.HasChannel (.changes id)) :
    Paired b s s' (s.listen n id) (s'.listen n id) := by
  obtain ⟨hchange, hguard⟩ := h.subscribe (.changes id) rfl hthere (.repaint n id) (not_own hn rfl)
  obtain ⟨hrequest, hguard'⟩ := hchange.twin.subscribe (.requests id) rfl (hchange.there _ hthere) (.repaintAll n id)
    (not_own hn rfl)
  have hlog := hrequest.twin.hushed (.log _ (.attached id)) (.log _ (.attached id))
  refine (hchange.trans (hrequest.trans hlog)).trans (hlog.twin.modifyRegistry hn ?_)
  exact .openEntry ⟨rfl, .nil, hlog.guard (hrequest.guard hguard), hlog.guard hguard'⟩ (hlog.twin.registry hn)

/-- A record gets its entry with the first of its bindings: on both sides, or on neither. -/
theorem opened {p : Prepared} (hthere : s.HasChannel (.changes p.record)) :
    Paired b s s' (s.opened n p) (s'.opened n p) := by
  have hwarn := h.hushed (.warnMissing s (s.binder n).config p.record p.normalized.triggers)
    (.warnMissing s' (s'.binder n).config p.record p.normalized.triggers)
  unfold Store.opened
  simp only
  rw [(hwarn.twin.registry hn).has]
  split
  · exact hwarn
  · exact hwarn.trans (hwarn.twin.listen hn (hwarn.there _ hthere))

omit hn in
/-- A handler is attached, whatever the tree: the stranger's has other handlers, and is no tree of anybody else. -/
theorem attachHandler (scope : Scope) (event : String) (selector : Option Selector) (handler : EventHandler) :
    Paired b s s' (s.attachHandler scope event selector handler).1 (s'.attachHandler scope event selector handler).1 ∧
      (s.attachHandler scope event selector handler).1.SameGuard b (s'.attachHandler scope event selector handler).1
        (s.attachHandler scope event selector handler).2 (s'.attachHandler scope event selector handler).2 := by
  refine ⟨h.modifyTree scope.tree fun _ => rfl, rfl, nofun, fun k hk hne => ?_⟩
  obtain rfl : scope.tree = k := Option.some.inj hk
  simp only [Store.attachHandler, h.tree hne]

omit hn in
/-- A handler for a selector text. A text that is no selector attaches nothing on either side. -/
theorem delegate (scope : Scope) (event text : String) (handler : EventHandler) :
    Paired b s s' (s.delegate scope event text handler).1 (s'.delegate scope event text handler).1 ∧
      (s.delegate scope event text handler).1.SameGuard? b (s'.delegate scope event text handler).1
        (s.delegate scope event text handler).2 (s'.delegate scope event text handler).2 := by
  unfold Store.delegate
  split
  · have hattach := h.attachHandler scope event none handler
    exact ⟨hattach.1, .some hattach.2⟩
  · split
    · next selector _ =>
      have hattach := h.attachHandler scope event (some selector) handler
      exact ⟨hattach.1, .some hattach.2⟩
    · exact ⟨h.hushed (.log s _) (.log s' _), .none⟩

omit hn in
/-- The handler of a two-way binding. -/
theorem listenBack (n : Nat) (p : Prepared) :
    Paired b s s' (s.listenBack n p).1 (s'.listenBack n p).1 ∧
      (s.listenBack n p).1.SameGuard? b (s'.listenBack n p).1 (s.listenBack n p).2 (s'.listenBack n p).2 := by
  unfold Store.listenBack
  rw [h.scope n]
  split
  · next event field _ _ =>
    have hobserved := h.hushed (.observe s (.delegate event p.key.selector)) (.observe s' (.delegate event p.key.selector))
    have hdelegate := hobserved.twin.delegate (s'.binder n).scope event p.key.selector
      (.writeBack ⟨p.record, field, Attribute.classify p.key.attr, p.normalized.negate⟩)
    exact ⟨hobserved.trans hdelegate.1, hdelegate.2⟩
  · exact ⟨.refl h, .none⟩

/-- A binding is registered, and the handler of the one that it replaces is dropped. -/
theorem register {x x' : Binding} (hx : x.Alike (s.SameGuard b s') x') :
    Paired b s s' (s.register n x) (s'.register n x') := by
  have hinsert := h.modifyRegistry hn ((h.registry hn).insert hx)
  have hold := (h.registry hn).find? x.record x.key
  unfold Store.register
  simp only
  rw [← hx.record, ← hx.key]
  generalize (s.binder n).registry.find? x.record x.key = old, (s'.binder n).registry.find? x.record x.key = old' at hold
  cases hold with
  | none => exact hinsert
  | some hold =>
    have hlogged := hinsert.hushed (.log _ (.replaced x.record x.key)) (.log _ (.replaced x.record x.key))
    exact hlogged.trans (hlogged.twin.dropAll (hlogged.guards (rel_toList hold.guard)))

/-- **A binding is put into effect**, and rendered if it is asked to be. -/
theorem commit {p : Prepared} (hthere : s.HasChannel (.changes p.record)) :
    Paired b s s' (s.commit n p) (s'.commit n p) := by
  have hopened := h.opened hn hthere
  have hback := hopened.twin.listenBack n p
  have hx : (Prepared.binding p ((s.opened n p).listenBack n p).2).Alike
      (((s.opened n p).listenBack n p).1.SameGuard b ((s'.opened n p).listenBack n p).1)
      (Prepared.binding p ((s'.opened n p).listenBack n p).2) := ⟨unguarded_binding p _ _, hback.2⟩
  have hregister := (hopened.trans hback.1).trans (hback.1.twin.register hn hx)
  rw [commit_eq, commit_eq]
  simp only
  split
  · rw [render_congr _ n (unguarded_binding p ((s'.opened n p).listenBack n p).2 ((s.opened n p).listenBack n p).2)]
    exact hregister.trans (hregister.twin.render n _)
  · exact hregister

/-- The bindings of a map, one after the other. -/
theorem commitAll {ps : List Prepared} (hthere : ∀ p ∈ ps, s.HasChannel (.changes p.record)) :
    Paired b s s' (s.commitAll n ps) (s'.commitAll n ps) := by
  induction ps generalizing s s' with
  | nil => exact .refl h
  | cons p rest ih =>
    have hfirst := h.commit hn (hthere p List.mem_cons_self)
    have hrest : Paired b (s.commit n p) (s'.commit n p) ((s.commit n p).commitAll n rest)
        ((s'.commit n p).commitAll n rest) :=
      ih hfirst.twin fun q hq => hfirst.there _ (hthere q (List.mem_cons_of_mem _ hq))
    exact hfirst.trans hrest

/-! ## Removing bindings -/

/-- **What stands under a key is removed**: its handler is dropped, and with the last key the listeners of the record.
-/
theorem removeBinding (id : RecordId) (key : BindingKey) :
    Paired b s s' (s.removeBinding n id key) (s'.removeBinding n id key) := by
  have hregistry := h.registry hn
  have hremove : Paired b s s' (s.modifyRegistry n (·.remove id key)) (s'.modifyRegistry n (·.remove id key)) :=
    h.modifyRegistry hn (hregistry.remove id key)
  unfold Store.removeBinding
  simp only
  refine hremove.trans (hremove.twin.dropAll (hremove.guards (List.rel_append ?_ ?_)))
  · exact rel_handlerGuards (rel_toList (hregistry.find? id key))
  · rw [hregistry.isLast]
    split
    · have hentry := hregistry.entryOf? id
      generalize (s.binder n).registry.entryOf? id = e, (s'.binder n).registry.entryOf? id = e' at hentry
      cases hentry with
      | none => exact .nil
      | some he => exact .cons he.onChange (.cons he.onRequest .nil)
    · exact .nil

/-- A key is unbound. What is noted depends on the registry, and is the same but for the journal. -/
theorem unbind (id : RecordId) (key : BindingKey) : Paired b s s' (s.unbind n id key) (s'.unbind n id key) := by
  have hregistry := h.registry hn
  have hfound : ((s.binder n).registry.find? id key).isNone = ((s'.binder n).registry.find? id key).isNone := by
    have hsome := isSome_eq_of_rel (hregistry.find? id key)
    rw [← Option.not_isSome, ← Option.not_isSome, hsome]
  unfold Store.unbind
  simp only
  rw [hregistry.has, hfound, hregistry.isLast]
  split
  · exact h.hushed (.log s _) (.log s' _)
  · split
    · exact h.hushed (.log s _) (.log s' _)
    · have hlogged := h.hushed (.log s (.unbound id key)) (.log s' (.unbound id key))
      split
      · have hdetached := hlogged.hushed (.log _ (.detached id)) (.log _ (.detached id))
        exact hdetached.trans (hdetached.twin.removeBinding hn id key)
      · exact hlogged.trans (hlogged.twin.removeBinding hn id key)

/-- **All bindings of a record, or of every record, are removed.** -/
theorem unbindAll (id : Option RecordId) : Paired b s s' (s.unbindAll n id) (s'.unbindAll n id) := by
  have hregistry := h.registry hn
  have hrecord : ∀ e e' : Registry.Entry, e.Alike (s.SameGuard b s') e' →
      id.all (e.record = ·) = id.all (e'.record = ·) := fun e e' he => by rw [he.record]
  have hremove := h.modifyRegistry hn (hregistry.filter fun e e' he => congrArg (!·) (hrecord e e' he))
  have hlogged := hremove.hushed
    (.logAll _ (((s.binder n).registry.filter fun e => id.all (e.record = ·)).map fun e =>
      .detachedAll e.record e.bindings.length))
    (.logAll _ (((s'.binder n).registry.filter fun e => id.all (e.record = ·)).map fun e =>
      .detachedAll e.record e.bindings.length))
  unfold Store.unbindAll
  exact hlogged.trans (hlogged.twin.dropAll (hlogged.guards (hregistry.filter hrecord).guards))

/-- The collections are left: guards that are related are dropped in pairs. -/
theorem leaveCollections : Paired b s s' (s.leaveCollections n) (s'.leaveCollections n) := by
  have halike := h.binder n hn
  have hleave : Paired b s s' (s.modifyBinder n fun x => { x with collectionGuards := [] })
      (s'.modifyBinder n fun x => { x with collectionGuards := [] }) :=
    h.modifyBinder hn (fun _ => ⟨rfl, rfl⟩) (fun _ => ⟨rfl, rfl⟩) ⟨halike.registry, .nil, halike.retired⟩
  unfold Store.leaveCollections
  exact hleave.trans (hleave.twin.dropAll (hleave.guards halike.collections))

/-- A binder is detached from everything. -/
theorem detach : Paired b s s' (s.detach n) (s'.detach n) := by
  have hunbound := h.unbindAll hn none
  have hcount := (hunbound.twin.binder n hn).collections.length_eq
  unfold Store.detach
  simp only
  rw [hcount]
  split
  · exact hunbound.trans (hunbound.twin.leaveCollections hn)
  · have hlogged := hunbound.hushed (.log _ (.detachedCollections ((s'.unbindAll n none).binder n).collectionGuards.length))
      (.log _ (.detachedCollections ((s'.unbindAll n none).binder n).collectionGuards.length))
    exact hlogged.trans (hlogged.twin.leaveCollections hn)

/-- Keys are released one after the other; those that are gone already are passed over on both sides. -/
theorem releaseKeys (count : Nat) (keys : List (RecordId × BindingKey)) :
    Paired b s s' (keys.foldl (fun (s, count) (id, key) =>
        if ((s.binder n).registry.find? id key).isSome then (s.removeBinding n id key, count + 1)
        else (s, count)) (s, count)).1
      (keys.foldl (fun (s, count) (id, key) =>
        if ((s.binder n).registry.find? id key).isSome then (s.removeBinding n id key, count + 1)
        else (s, count)) (s', count)).1 := by
  induction keys generalizing s s' count with
  | nil => exact .refl h
  | cons entry rest ih =>
    have hfound := isSome_eq_of_rel ((h.registry hn).find? entry.1 entry.2)
    rw [List.foldl_cons, List.foldl_cons]
    simp only
    rw [hfound]
    split
    · have hremoved := h.removeBinding hn entry.1 entry.2
      exact hremoved.trans (ih hremoved.twin _)
    · exact ih h _

/-- **A view releases the keys that it owns**, and the collection if it owns that. -/
theorem release (keys : List (RecordId × BindingKey)) (collections : Bool) :
    Paired b s s' (s.release n keys collections) (s'.release n keys collections) := by
  have hkeys := h.releaseKeys hn 0 keys
  unfold Store.release
  generalize keys.foldl _ (s, 0) = r, keys.foldl _ (s', 0) = r' at hkeys ⊢
  have hlogged := hkeys.hushed (.log r.1 (.released r.2)) (.log r'.1 (.released r'.2))
  simp only
  split
  · exact hlogged.trans (hlogged.twin.leaveCollections hn)
  · exact hlogged

/-- A binder whose last handle is gone gives everything up. -/
theorem retire : Paired b s s' (s.retire n) (s'.retire n) := by
  have halike := h.binder n hn
  have hretire : Paired b s s' (s.modifyBinder n fun x => { x with registry := [], collectionGuards := [], retired := true })
      (s'.modifyBinder n fun x => { x with registry := [], collectionGuards := [], retired := true }) :=
    h.modifyBinder hn (fun _ => ⟨rfl, rfl⟩) (fun _ => ⟨rfl, rfl⟩) ⟨.nil, .nil, rfl⟩
  unfold Store.retire
  exact hretire.trans (hretire.twin.dropAll (hretire.guards
    (List.rel_append halike.registry.guards halike.collections)))

/-- A binder begins to listen to a collection, on both of its channels. -/
theorem listenCollection {c : Nat} (hc : s.HasChannel (.removals c)) :
    Paired b s s' (s.listenCollection n c) (s'.listenCollection n c) := by
  obtain ⟨hremoval, hguard⟩ := h.subscribe (.removals c) rfl hc (.dropMember n) (not_own hn rfl)
  obtain ⟨hreset, hguard'⟩ := hremoval.twin.subscribe (.resets c) rfl (hremoval.there (.removals c) hc) (.dropAll n)
    (not_own hn rfl)
  have halike := hreset.twin.binder n hn
  refine (hremoval.trans hreset).trans (hreset.twin.modifyBinder hn (fun _ => ⟨rfl, rfl⟩) (fun _ => ⟨rfl, rfl⟩)
    ⟨halike.registry, ?_, halike.retired⟩)
  exact List.rel_append halike.collections (.cons (hreset.guard hguard) (.cons hguard' .nil))

end Twin

end Databind.Store
