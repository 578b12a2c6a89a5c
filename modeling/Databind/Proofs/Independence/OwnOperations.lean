import Databind.Proofs.Independence.BasicChanges

/-!
# `Proofs.Independence.OwnOperations` — what a binder does shows nowhere else

What the stranger does is made in one store alone. It changes its own registry, takes up and drops listeners of its own,
and draws in its tree; nothing of that shows to others. The lemmas follow the operations of a binder.

## Main definitions

* `Store.Aside` — something done aside.
-/

namespace Databind.Store

variable {b : Stranger} {s s' t t' u : Store}

/-- **Something done aside**: nothing shows of it but in the stranger, its listeners and its tree. -/
structure Aside (b : Stranger) (s t : Store) : Prop where
  kept : t.Kept b
  outline : t.outline b = s.outline b
  binder : ∀ n, n ≠ b.binder → t.binder n = s.binder n
  tied : ∀ ch ids, s.Tied b s ch ids ids → s.Tied b t ch ids ids

namespace Aside

theorem trans (h : s.Aside b t) (h' : t.Aside b u) : s.Aside b u where
  kept := h'.kept
  outline := h'.outline.trans h.outline
  binder n hn := (h'.binder n hn).trans (h.binder n hn)
  tied ch ids hids := by
    have hfirst := h.tied ch ids hids
    exact hfirst.trans (h'.tied ch ids (hfirst.symm.trans hfirst))

/-- Then something else is done aside. -/
theorem andThen (h : s.Aside b t) (f : t.Kept b → t.Aside b u) : s.Aside b u := h.trans (f h.kept)

theorem sizes (h : s.Aside b t) : t.sizes = s.sizes := congrArg Outline.sizes h.outline

/-- No object comes or goes by what is done aside. -/
theorem hasChannel (h : s.Aside b t) {ch : Channel} (hch : s.HasChannel ch) : t.HasChannel ch :=
  hasChannel_of_sizes h.sizes ch hch

/-- Identities that find nobody else's listeners still do not. -/
theorem own (h : s.Aside b t) {ch : Channel} {ids : List Nat} (hids : s.Tied b s ch ids []) :
    t.Tied b t ch ids [] := by
  have hself := h.tied ch ids (hids.trans hids.symm)
  have hbare := h.tied ch [] (hids.symm.trans hids)
  exact (hself.symm.trans hids).trans hbare

/-- **What one of two twins does aside leaves them twins.** -/
theorem paired (h : s.Aside b t) (htwin : s.Twin b s') : Paired b s s' t s' := by
  have hties : ∀ ch ids ids', s.Tied b s' ch ids ids' → t.Tied b s' ch ids ids' := fun ch ids ids' hids =>
    (h.tied ch ids (hids.trans hids.symm)).symm.trans hids
  refine ⟨⟨h.outline.trans htwin.outline, fun ch => hties ch _ _ (htwin.tied ch), fun n hn => ?_, h.kept,
    htwin.kept'⟩, fun ch hch => h.hasChannel hch, hties⟩
  rw [h.binder n hn]
  exact (htwin.binder n hn).imp fun g g' hg => ⟨hg.channel, hties _ _ _ hg.tied⟩

end Aside

/-- What is done on both sides may be read from the other side. -/
theorem Paired.symm (h : Paired b s s' t t') (htwin : s.Twin b s') : Paired b s' s t' t :=
  ⟨h.twin.symm, fun ch hch => h.twin.hasChannel (h.there ch (htwin.symm.hasChannel hch)),
    fun ch _ _ hids => (h.ties ch _ _ hids.symm).symm⟩

/-- **What both twins do aside leaves them twins.** -/
theorem Twin.aside (h : s.Twin b s') (ht : s.Aside b t) (ht' : s'.Aside b t') : Paired b s s' t t' := by
  have hfirst := ht.paired h
  exact hfirst.trans ((ht'.paired hfirst.twin.symm).symm hfirst.twin.symm)

namespace Kept

variable (h : s.Kept b)
include h

/-! ## Basic changes -/

/-- The stranger gives notices, and nobody reads them. -/
theorem hushed (ht : s.Hushed t) : s.Aside b t := by
  obtain ⟨j, rfl⟩ := ht
  have hroster (ch : Channel) : roster { s with journal := j } ch = s.roster ch := s.roster_congr rfl rfl rfl rfl ch
  have hties (s' : Store) {ch : Channel} {ids ids' : List Nat} (hids : s'.Tied b s ch ids ids') :
      s'.Tied b { s with journal := j } ch ids ids' := hids.congr (fun _ => rfl) fun _ => hroster ch
  refine ⟨⟨h.there, h.tree, fun ch hch => hroster ch ▸ h.rosters ch hch, fun g hg => ?_⟩, rfl, fun _ _ => rfl,
    fun ch ids hids => hties s hids⟩
  exact (h.own g hg).congr (fun _ => hroster _) fun _ => hroster _

theorem refl : s.Aside b s := h.hushed (.refl s)

/-- A change aside of listeners only. -/
theorem of_rosters (houtline : t.outline b = s.outline b) (hbinders : t.binders = s.binders)
    (hties : ∀ ch ids, s.Tied b s ch ids ids → s.Tied b t ch ids ids)
    (hrosters : ∀ ch, ch.tree? = none → (t.roster ch).Sound) : s.Aside b t := by
  have hbinder (n : Nat) : t.binder n = s.binder n := by simp only [Store.binder, hbinders]
  refine ⟨⟨hbinders ▸ h.there, (hbinder _).symm ▸ h.tree, hrosters, fun g hg => ?_⟩, houtline,
    fun n _ => hbinder n, hties⟩
  have hown := h.own g (hbinder _ ▸ hg)
  exact ((hties _ _ (hown.trans hown.symm)).symm.trans hown).trans (hties _ _ (hown.symm.trans hown))

/-- **A new listener of the stranger's**: it finds itself only. -/
theorem subscribe (ch : Channel) (hch : ch.tree? = none) (hthere : s.HasChannel ch) (l : Listener)
    (hl : (Hearer.listener l).isOf b.binder = true) :
    s.Aside b (s.subscribe ch l).1 ∧
      (s.subscribe ch l).1.Tied b (s.subscribe ch l).1 (s.subscribe ch l).2.channel [(s.subscribe ch l).2.id] [] := by
  have hroster : ∀ ch', (s.subscribe ch l).1.roster ch' =
      if ch' = ch then (s.roster ch).subscribe (.listener l) else s.roster ch' := by
    intro ch'
    rw [s.roster_subscribe l hch]
    simp only [hthere, and_true]
  constructor
  · refine h.of_rosters ?_ ?_ (fun ch' ids hids => ⟨fun hch' => ?_, hids.tree⟩) fun ch' hch' => ?_
    · rw [subscribe_eq, outline_modifyListeners]
    · rw [subscribe_eq, binders_modifyListeners]
    · rw [hroster]
      split
      · next heq =>
        subst heq
        exact .subscribe_own hl (hids.roster hch')
      · exact hids.roster hch'
    · rw [hroster]
      split
      · exact Roster.sound_subscribe (h.rosters ch hch) _
      · exact h.rosters ch' hch'
  · rw [s.guard_subscribe l hch]
    refine ⟨fun _ => ?_, fun k hk => by simp [hch] at hk⟩
    rw [hroster, if_pos rfl]
    exact .subscribed_own hl (h.rosters ch hch)

/-- A change of the stranger's tree. -/
theorem modifyTree {k : Nat} (hk : k = b.tree) (f : Tree → Tree) : s.Aside b (s.modifyTree k f) := by
  subst hk
  have hroster (ch : Channel) (hch : ch.tree? = none) : (s.modifyTree b.tree f).roster ch = s.roster ch := by
    rw [roster_modifyTree, if_neg]
    rintro ⟨rfl, -⟩
    cases hch
  have htree : (fun k => if k = b.tree then default else (s.modifyTree b.tree f).tree k) =
      fun k => if k = b.tree then default else s.tree k := by
    funext k
    by_cases hk : k = b.tree
    · rw [if_pos hk, if_pos hk]
    · rw [if_neg hk, if_neg hk, tree_modifyTree, if_neg fun hsame => hk hsame.1]
  refine h.of_rosters ?_ rfl (fun ch ids hids => hids.congr (fun _ => rfl) (hroster ch)) fun ch hch => ?_
  · rw [outline_modifyTree, htree]
    rfl
  · rw [hroster ch hch]
    exact h.rosters ch hch

/-- A view of the stranger comes to own something, or nothing more. -/
theorem modifyView {v : Nat} {f : View → View} (hf : (f (s.view v)).apart b.binder = (s.view v).apart b.binder) :
    s.Aside b (s.modifyView v f) := by
  have hview : (fun v' => ((s.modifyView v f).view v').apart b.binder) = fun v' => (s.view v').apart b.binder := by
    funext v'
    rw [view_modifyView]
    split
    · next hv => rw [hf, hv.1]
    · rfl
  refine h.of_rosters ?_ rfl (fun ch ids hids => ⟨hids.roster, hids.tree⟩) h.rosters
  rw [outline_modifyView, hview]
  rfl

/-- **A change of the stranger** that takes no guard of somebody else's listener. -/
theorem modifyBinder {f : Binder → Binder} (hf : ∀ x, (f x).scope = x.scope ∧ (f x).config = x.config)
    (hown : ∀ g ∈ (f (s.binder b.binder)).guards, s.Tied b s g.channel [g.id] []) :
    s.Aside b (s.modifyBinder b.binder f) := by
  have hself : (s.modifyBinder b.binder f).binder b.binder = f (s.binder b.binder) := by
    rw [binder_modifyBinder, if_pos ⟨rfl, h.there⟩]
  refine ⟨⟨?_, ?_, h.rosters, fun g hg => ?_⟩, outline_modifyBinder _ hf, fun n hn => ?_,
    fun _ _ hids => ⟨hids.roster, hids.tree⟩⟩
  · simpa [Store.modifyBinder] using h.there
  · rw [hself, (hf _).1]
    exact h.tree
  · rw [hself] at hg
    exact ⟨(hown g hg).roster, (hown g hg).tree⟩
  · rw [binder_modifyBinder, if_neg fun hsame => hn hsame.1]

/-- **The stranger changes its registry**: the guards in it must stand for itself. -/
theorem modifyRegistry {f : Registry → Registry}
    (hown : ∀ g ∈ (f (s.binder b.binder).registry).guards, s.Tied b s g.channel [g.id] []) :
    s.Aside b (s.modifyRegistry b.binder f) := by
  refine h.modifyBinder (fun _ => ⟨rfl, rfl⟩) fun g hg => ?_
  rcases List.mem_append.mp hg with hg | hg
  · exact hown g hg
  · exact h.own g (List.mem_append_right _ hg)

theorem own_registry {g : Guard} (hg : g ∈ (s.binder b.binder).registry.guards) :
    s.Tied b s g.channel [g.id] [] := h.own g (List.mem_append_left _ hg)

/-- **Dropping a guard that finds nobody else's listener.** -/
theorem drop {g : Guard} (hg : s.Tied b s g.channel [g.id] []) : s.Aside b (s.drop g) := by
  obtain ⟨ch, i⟩ := g
  cases hch : ch.tree? with
  | none =>
    have hroster := s.roster_modifyRoster (Roster.uniform_release i) ch
    refine h.of_rosters ?_ ?_ (fun ch' ids hids => ⟨fun hch' => ?_, hids.tree⟩) fun ch' hch' => ?_
    · rw [Store.drop, modifyRoster_eq s hch, outline_modifyListeners]
    · exact Wired.binders_drop s ⟨ch, i⟩
    · rw [Store.drop, hroster]
      split
      · next heq =>
        subst heq
        exact (hg.roster hch).release_own (hids.roster hch')
      · exact hids.roster hch'
    · exact Wired.sound_drop ⟨ch, i⟩ ch' (h.rosters ch' hch')
  | some k =>
    cases ch with
    | delegations j =>
      obtain rfl : j = b.tree := by
        by_contra hne
        cases hg.tree j rfl hne
      exact h.modifyTree rfl _
    | _ => cases hch

/-- The stranger drops guards of its own. -/
theorem dropAll {gs : List Guard} (hgs : ∀ g ∈ gs, s.Tied b s g.channel [g.id] []) : s.Aside b (s.dropAll gs) := by
  induction gs generalizing s with
  | nil => exact h.refl
  | cons g rest ih =>
    have hfirst := h.drop (hgs g List.mem_cons_self)
    exact hfirst.trans (ih hfirst.kept fun g' hg' => hfirst.own (hgs g' (List.mem_cons_of_mem _ hg')))

end Kept

/-- Then guards are dropped that found nobody else's listener before. -/
theorem Aside.dropAll (h : s.Aside b t) {gs : List Guard} (hgs : ∀ g ∈ gs, s.Tied b s g.channel [g.id] []) :
    s.Aside b (t.dropAll gs) := h.andThen fun hkept => hkept.dropAll fun g hg => h.own (hgs g hg)

theorem Aside.hushed (h : s.Aside b t) (hu : t.Hushed u) : s.Aside b u := h.andThen fun hkept => hkept.hushed hu

namespace Kept

/-! ## Making bindings -/

/-- **A binder that renders into the stranger's tree** shows nowhere else. -/
theorem render (h : s.Kept b) {n : Nat} (hn : (s.binder n).scope.tree = b.tree) (x : Binding) :
    s.Aside b (s.render n x) := by
  have hselect := h.hushed ((Hushed.observe s (.query x.key.selector)).trans (.select _ (s.binder n).scope x.key.selector))
  unfold Store.render
  simp only
  split
  · exact hselect.hushed (.log _ _)
  · exact (hselect.hushed (.log _ _)).andThen fun hkept => hkept.modifyTree hn _

/-- The stranger renders in its tree. -/
theorem renderAll (h : s.Kept b) (xs : List Binding) : s.Aside b (s.renderAll b.binder xs) := by
  induction xs generalizing s with
  | nil => exact h.refl
  | cons x rest ih =>
    rw [renderAll_cons]
    exact (h.render h.tree x).andThen ih

/-- **The stranger begins to listen to a record**: nobody else is listed differently for that. -/
theorem listen (h : s.Kept b) {id : RecordId} (hthere : s.HasChannel (.changes id)) : s.Aside b (s.listen b.binder id) := by
  obtain ⟨hchange, hguard⟩ := h.subscribe (.changes id) rfl hthere (.repaint b.binder id) (decide_eq_true rfl)
  obtain ⟨hrequest, hguard'⟩ := hchange.kept.subscribe (.requests id) rfl (hchange.hasChannel hthere)
    (.repaintAll b.binder id) (decide_eq_true rfl)
  have hlogged := (hchange.trans hrequest).hushed (.log _ (.attached id))
  unfold Store.listen
  refine hlogged.andThen fun hkept => hkept.modifyRegistry fun g hg => ?_
  rcases Registry.mem_guards_openEntry hg with hg | hg
  · -- the new entry owns the two subscriptions just made
    have hlog := hrequest.kept.hushed (.log _ (.attached id))
    rcases Registry.mem_entryGuards.mp hg with ⟨x, hx, -⟩ | rfl | rfl
    · cases hx
    · exact hlog.own (hrequest.own hguard)
    · exact hlog.own hguard'
  · exact hkept.own_registry hg

/-- The stranger opens an entry for a record. -/
theorem opened (h : s.Kept b) {p : Prepared} (hthere : s.HasChannel (.changes p.record)) :
    s.Aside b (s.opened b.binder p) := by
  have hwarn := h.hushed (.warnMissing s (s.binder b.binder).config p.record p.normalized.triggers)
  unfold Store.opened
  simp only
  split
  · exact hwarn
  · exact hwarn.andThen fun hkept => hkept.listen (hwarn.hasChannel hthere)

/-- The stranger attaches a handler in its own tree. -/
theorem delegate (h : s.Kept b) {scope : Scope} (hscope : scope.tree = b.tree) (event text : String)
    (handler : EventHandler) :
    s.Aside b (s.delegate scope event text handler).1 ∧
      ∀ g, (s.delegate scope event text handler).2 = some g → g.channel = .delegations b.tree := by
  unfold Store.delegate
  split
  · exact ⟨h.modifyTree hscope _, fun g hg => by rw [← Option.some.inj hg, ← hscope]; rfl⟩
  · split
    · exact ⟨h.modifyTree hscope _, fun g hg => by rw [← Option.some.inj hg, ← hscope]; rfl⟩
    · exact ⟨h.hushed (.log s _), fun g hg => by cases hg⟩

/-- A guard on the stranger's tree finds nobody else's listener. -/
theorem own_delegation (s : Store) {g : Guard} (hg : g.channel = .delegations b.tree) : s.Tied b s g.channel [g.id] [] := by
  rw [hg]
  refine ⟨nofun, fun k hk hne => ?_⟩
  cases hk
  exact absurd rfl hne

/-- The handler of a two-way binding of the stranger. -/
theorem listenBack (h : s.Kept b) (p : Prepared) :
    s.Aside b (s.listenBack b.binder p).1 ∧
      ∀ g, (s.listenBack b.binder p).2 = some g → g.channel = .delegations b.tree := by
  unfold Store.listenBack
  split
  · next event field _ _ =>
    have hobserved := h.hushed (.observe s (.delegate event p.key.selector))
    have hdelegate := hobserved.kept.delegate h.tree event p.key.selector
      (.writeBack ⟨p.record, field, Attribute.classify p.key.attr, p.normalized.negate⟩)
    exact ⟨hobserved.trans hdelegate.1, hdelegate.2⟩
  · exact ⟨h.refl, fun g hg => by cases hg⟩

/-- A binding is put into the stranger's registry. -/
theorem register (h : s.Kept b) {x : Binding} (hx : ∀ g, x.guard = some g → g.channel = .delegations b.tree) :
    s.Aside b (s.register b.binder x) := by
  have hinsert : s.Aside b (s.modifyRegistry b.binder (·.insert x)) := by
    refine h.modifyRegistry fun g hg => ?_
    rcases Registry.mem_guards_insert hg with hg | hg
    · exact h.own_registry hg
    · exact own_delegation s (hx g hg)
  unfold Store.register
  simp only
  split
  · next old hold =>
    -- the guard of a binding that is replaced was the stranger's
    refine (hinsert.hushed (.log _ _)).dropAll fun g hg => ?_
    exact h.own_registry (Registry.mem_guards_of_find? hold (Option.mem_toList.mp hg))
  · exact hinsert

/-- **The stranger puts a binding into effect.** -/
theorem commit (h : s.Kept b) {p : Prepared} (hthere : s.HasChannel (.changes p.record)) :
    s.Aside b (s.commit b.binder p) := by
  have hopened := h.opened hthere
  have hback := hopened.kept.listenBack p
  have hregister := (hopened.trans hback.1).andThen fun hkept =>
    hkept.register (x := Prepared.binding p ((s.opened b.binder p).listenBack b.binder p).2) hback.2
  rw [commit_eq]
  simp only
  split
  · exact hregister.andThen fun hkept => hkept.render hkept.tree _
  · exact hregister

theorem commitAll (h : s.Kept b) {ps : List Prepared} (hthere : ∀ p ∈ ps, s.HasChannel (.changes p.record)) :
    s.Aside b (s.commitAll b.binder ps) := by
  induction ps generalizing s with
  | nil => exact h.refl
  | cons p rest ih =>
    have hfirst := h.commit (hthere p List.mem_cons_self)
    have hrest : (s.commit b.binder p).Aside b ((s.commit b.binder p).commitAll b.binder rest) :=
      ih hfirst.kept fun q hq => hfirst.hasChannel (hthere q (List.mem_cons_of_mem _ hq))
    exact hfirst.trans hrest

/-- The stranger binds a property directly. -/
theorem bind (h : s.Kept b) (id : RecordId) (property : Property) (key : BindingKey) (twoWay : TwoWay) (autoRender : Bool) :
    s.Aside b (s.bind b.binder id property key twoWay autoRender).1 := by
  unfold Store.bind
  split
  · next p hp => exact h.commit (s.lt_of_alive (prepare_ready hp).alive)
  · exact h.refl

/-! ## Removing bindings -/

/-- **The stranger removes what stands under a key.** -/
theorem removeBinding (h : s.Kept b) (id : RecordId) (key : BindingKey) : s.Aside b (s.removeBinding b.binder id key) := by
  have hremove : s.Aside b (s.modifyRegistry b.binder (·.remove id key)) :=
    h.modifyRegistry fun g hg => h.own_registry (Registry.mem_guards_remove hg)
  unfold Store.removeBinding
  refine hremove.dropAll fun g hg => ?_
  rcases List.mem_append.mp hg with hg | hg
  · obtain ⟨x, hx, hguard⟩ := List.mem_filterMap.mp hg
    exact h.own_registry (Registry.mem_guards_of_find? (Option.mem_toList.mp hx) hguard)
  · split at hg
    · -- the last binding of a record takes the subscriptions to the record along
      cases he : (s.binder b.binder).registry.entryOf? id with
      | none => simp [he] at hg
      | some e =>
        have hpair : g = e.onChange ∨ g = e.onRequest := by simpa [he] using hg
        exact h.own_registry (Registry.mem_guards.mpr
          ⟨e, (Registry.entryOf?_eq_some he).1, Registry.mem_entryGuards.mpr (.inr hpair)⟩)
    · cases hg

theorem unbind (h : s.Kept b) (id : RecordId) (key : BindingKey) : s.Aside b (s.unbind b.binder id key) := by
  unfold Store.unbind
  simp only
  split
  · exact h.hushed (.log s _)
  · split
    · exact h.hushed (.log s _)
    · split
      · exact (h.hushed ((Hushed.log s _).trans (.log _ _))).andThen fun hkept => hkept.removeBinding id key
      · exact (h.hushed (.log s _)).andThen fun hkept => hkept.removeBinding id key

/-- The stranger removes all its bindings of a record, or of every record. -/
theorem unbindAll (h : s.Kept b) (id : Option RecordId) : s.Aside b (s.unbindAll b.binder id) := by
  have hremove : s.Aside b (s.modifyRegistry b.binder fun registry => registry.filter fun e => !id.all (e.record = ·)) :=
    h.modifyRegistry fun g hg => h.own_registry (Registry.mem_guards_filter hg)
  unfold Store.unbindAll
  exact (hremove.hushed (.logAll _ _)).dropAll fun g hg => h.own_registry (Registry.mem_guards_filter hg)

/-- The stranger leaves its collections. -/
theorem leaveCollections (h : s.Kept b) : s.Aside b (s.leaveCollections b.binder) := by
  have hleave : s.Aside b (s.modifyBinder b.binder fun x => { x with collectionGuards := [] }) := by
    refine h.modifyBinder (fun _ => ⟨rfl, rfl⟩) fun g hg => ?_
    have hregistry : g ∈ (s.binder b.binder).registry.guards := by simpa [Binder.guards] using hg
    exact h.own_registry hregistry
  unfold Store.leaveCollections
  exact hleave.dropAll fun g hg => h.own g (List.mem_append_right _ hg)

/-- The stranger is detached from everything. -/
theorem detach (h : s.Kept b) : s.Aside b (s.detach b.binder) := by
  unfold Store.detach
  simp only
  split
  · exact (h.unbindAll none).andThen fun hkept => hkept.leaveCollections
  · exact ((h.unbindAll none).hushed (.log _ _)).andThen fun hkept => hkept.leaveCollections

theorem releaseKeys (h : s.Kept b) (count : Nat) (keys : List (RecordId × BindingKey)) :
    s.Aside b (keys.foldl (fun (s, count) (id, key) =>
      if ((s.binder b.binder).registry.find? id key).isSome then (s.removeBinding b.binder id key, count + 1)
      else (s, count)) (s, count)).1 := by
  induction keys generalizing s count with
  | nil => exact h.refl
  | cons entry rest ih =>
    rw [List.foldl_cons]
    simp only
    split
    · exact (h.removeBinding _ _).andThen fun hkept => ih hkept _
    · exact ih h _

/-- A view of the stranger releases what it owns. -/
theorem release (h : s.Kept b) (keys : List (RecordId × BindingKey)) (collections : Bool) :
    s.Aside b (s.release b.binder keys collections) := by
  have hkeys := h.releaseKeys 0 keys
  unfold Store.release
  generalize keys.foldl _ (s, 0) = r at hkeys ⊢
  have hlogged := hkeys.hushed (.log r.1 (.released r.2))
  simp only
  split
  · exact hlogged.andThen fun hkept => hkept.leaveCollections
  · exact hlogged

/-- The stranger retires: it keeps its scope, and nothing else. -/
theorem retire (h : s.Kept b) : s.Aside b (s.retire b.binder) := by
  have hretire : s.Aside b (s.modifyBinder b.binder fun x =>
      { x with registry := [], collectionGuards := [], retired := true }) :=
    h.modifyBinder (fun _ => ⟨rfl, rfl⟩) fun g hg => absurd hg List.not_mem_nil
  unfold Store.retire
  exact hretire.dropAll h.own

/-! ## Attaching -/

/-- The stranger begins to listen to a collection. -/
theorem listenCollection (h : s.Kept b) {c : Nat} (hc : c < s.collections.size) :
    s.Aside b (s.listenCollection b.binder c) := by
  have hthere : s.HasChannel (.removals c) := hc
  obtain ⟨hremoval, hguard⟩ := h.subscribe (.removals c) rfl hthere (.dropMember b.binder) (decide_eq_true rfl)
  obtain ⟨hreset, hguard'⟩ := hremoval.kept.subscribe (.resets c) rfl (hremoval.hasChannel hthere) (.dropAll b.binder)
    (decide_eq_true rfl)
  unfold Store.listenCollection
  refine (hremoval.trans hreset).andThen fun hkept => hkept.modifyBinder (fun _ => ⟨rfl, rfl⟩) fun g hg => ?_
  rcases List.mem_append.mp hg with hg | hg
  · exact hkept.own_registry hg
  · rcases List.mem_append.mp hg with hg | hg
    · exact hkept.own g (List.mem_append_right _ hg)
    · rcases List.mem_pair.mp hg with rfl | rfl
      · exact hreset.own hguard
      · exact hguard'

/-- **A map is attached to the stranger.** -/
theorem attach (h : s.Kept b) {source : Source} (hsource : ∀ c, source = .collection c → c < s.collections.size)
    (map : BindingMap) (autoRender : Option Bool) : s.Aside b (s.attach b.binder source map autoRender).1 := by
  -- all of it replaces everything
  have hreplace {s : Store} (h : s.Kept b) {ps : List Prepared} (hps : ∀ p ∈ ps, s.HasChannel (.changes p.record)) :
      s.Aside b ((s.detach b.binder).commitAll b.binder ps) := by
    have hdetach := h.detach
    exact hdetach.trans (hdetach.kept.commitAll fun p hp => hdetach.hasChannel (hps p hp))
  unfold Store.attach
  split
  · exact h.refl
  · cases source with
    | none => exact h.refl
    | record id =>
      simp only [attachRecord]
      split
      · exact h.refl
      · next ps hps => exact hreplace h fun p hp => s.lt_of_alive (prepareRecord_ready hps p hp).alive
    | collection c =>
      simp only [attachCollection]
      split
      · exact h.refl
      · next plan hplan =>
        have hlogged := h.hushed (.log s (.expanded (s.collection c).members.length plan.length))
        split
        · exact hlogged
        · next ps hps =>
          refine (hlogged.trans (hreplace hlogged.kept fun p hp => ?_)).andThen fun hkept => hkept.listenCollection ?_
          · exact lt_of_alive _ (preparePlan_ready hps p hp).alive
          · have hthere : s.HasChannel (.removals c) := hsource c rfl
            exact (hlogged.trans (hreplace hlogged.kept fun p hp =>
              lt_of_alive _ (preparePlan_ready hps p hp).alive)).hasChannel hthere

/-! ## Views and notifications -/

/-- What a view holds of the stranger does not show. -/
theorem holdings (h : s.Kept b) {v : Nat} (hv : (s.view v).binder = b.binder) (owned : List (RecordId × BindingKey))
    (collections : Bool) : s.Aside b (s.modifyView v fun x => { x with owned, ownsCollection := collections }) :=
  h.modifyView (by simp [View.apart, hv])

/-- A view of the stranger is mounted. -/
theorem mount (h : s.Kept b) {v : Nat} (hv : (s.view v).binder = b.binder) (hsourced : s.Sourced) :
    s.Aside b (s.mount v).1 := by
  have hattach : s.Aside b (s.attach b.binder (s.view v).source (s.view v).bindings (some false)).1 :=
    h.attach (fun c hc => hsourced v c hc) _ _
  unfold Store.mount
  simp only
  rw [hv]
  split
  · next heq =>
    rw [heq] at hattach
    exact hattach
  · next t heq =>
    rw [heq] at hattach
    split
    · exact hattach
    · -- the binder of the view is still the stranger
      refine hattach.andThen fun hkept => hkept.modifyView ?_
      have hview : (t.view v).apart b.binder = (s.view v).apart b.binder :=
        congrFun (congrArg Outline.view hattach.outline) v
      have hbinder : (t.view v).binder = b.binder := by
        have hsame := congrArg View.binder hview
        simpa only [View.apart, apply_ite View.binder, ite_self, hv] using hsame
      simp [View.apart, hbinder]

/-- A view of the stranger is unmounted. -/
theorem unmount (h : s.Kept b) {v : Nat} (hv : (s.view v).binder = b.binder) : s.Aside b (s.unmount v) := by
  have hview := h.holdings hv [] false
  unfold Store.unmount
  simp only
  rw [hv]
  split
  · exact hview.andThen fun hkept => hkept.release _ _
  · exact hview

theorem renderBindings (h : s.Kept b) (id : Option RecordId) : s.Aside b (s.renderBindings b.binder id) :=
  h.renderAll _

/-- **What the stranger does when it hears a notification.** -/
theorem react (h : s.Kept b) {l : Listener} (hl : l.binder? = some b.binder) (signal : Signal) :
    s.Aside b (Session.react s l signal) := by
  unfold Session.react
  split
  · next n id set =>
    obtain rfl : n = b.binder := Option.some.inj hl
    split
    · exact h.refl
    · unfold onChange
      simp only
      split
      · exact h.hushed (.log s _)
      · exact h.renderAll _
  · next n id =>
    obtain rfl : n = b.binder := Option.some.inj hl
    split
    · exact h.refl
    · exact (h.hushed (.log s _)).andThen fun hkept => hkept.renderAll _
  · next n id =>
    obtain rfl : n = b.binder := Option.some.inj hl
    split
    · exact h.refl
    · exact (h.hushed (.log s _)).andThen fun hkept => hkept.unbindAll _
  · next n =>
    obtain rfl : n = b.binder := Option.some.inj hl
    split
    · exact h.refl
    · exact (h.hushed (.log s _)).andThen fun hkept => hkept.detach
  · exact h.refl

end Kept

end Databind.Store
