import Databind.Proofs.Attaching
import Databind.Proofs.Possession

/-!
# `Proofs.Ownership` — what unmounting a view takes away

A view remembers keys, not bindings, and of collection listeners only whether there are any. Unmounting it takes
away what stands under those keys at that time, and all listeners on collections if it remembers some. That is what
its last mount created as long as nobody bound under the same keys or joined a collection since: what was created
since under a key that the view remembers goes with it.

## Main definitions

* `Binder.Released` — a binder after keys were released.
* `Binder.Since` — what a binder got since is due to acts.
* `Machine.LastMount` — the last time that a view was mounted in a run.
-/

namespace Databind

open Store

/-- A binder after some keys were released, and its listeners on collections if asked for. -/
structure Binder.Released (keys : List (RecordId × BindingKey)) (collections : Bool) (b b' : Binder) : Prop where
  bindings : ∀ id, b'.registry.bindingsOf id = (b.registry.bindingsOf id).filter fun x => (id, x.key) ∉ keys
  guards : b'.collectionGuards = if collections then [] else b.collectionGuards

/-- What a binder has that it did not have before, some act gave it. -/
structure Binder.Since (acts : List Act) (b b' : Binder) : Prop where
  bindings : ∀ id, ∀ x ∈ b'.registry.bindingsOf id,
    x ∈ b.registry.bindingsOf id ∨ ∃ p, Act.bound p ∈ acts ∧ p.record = id ∧ p.key = x.key
  guards : ∀ g ∈ b'.collectionGuards,
    g ∈ b.collectionGuards ∨ ∃ c, Act.joined c ∈ acts ∧ (g.channel = .removals c ∨ g.channel = .resets c)

namespace Binder.Since

variable {acts acts' : List Act} {b b' b'' : Binder}

theorem refl (acts : List Act) (b : Binder) : Since acts b b := ⟨fun _ _ => .inl, fun _ => .inl⟩

theorem trans (h : Since acts b b') (h' : Since acts' b' b'') : Since (acts ++ acts') b b'' where
  bindings id x hx := by
    obtain hx | ⟨p, hp, hsame⟩ := h'.bindings id x hx
    · exact (h.bindings id x hx).imp_right fun ⟨p, hp, hsame⟩ => ⟨p, List.mem_append_left _ hp, hsame⟩
    · exact .inr ⟨p, List.mem_append_right _ hp, hsame⟩
  guards g hg := by
    obtain hg | ⟨c, hc, hchannel⟩ := h'.guards g hg
    · exact (h.guards g hg).imp_right fun ⟨c, hc, hchannel⟩ => ⟨c, List.mem_append_left _ hc, hchannel⟩
    · exact .inr ⟨c, List.mem_append_right _ hc, hchannel⟩

end Binder.Since

namespace Store

variable {s : Store} {n : Nat}

/-! ## Unmounting -/

theorem collectionGuards_removeBinding (s : Store) (n : Nat) (id : RecordId) (key : BindingKey) (m : Nat) :
    ((s.removeBinding n id key).binder m).collectionGuards = (s.binder m).collectionGuards := by
  unfold removeBinding
  rw [binder_dropAll, collectionGuards_modifyRegistry]

theorem collectionGuards_unbindAll (s : Store) (n : Nat) (id : Option RecordId) (m : Nat) :
    ((s.unbindAll n id).binder m).collectionGuards = (s.binder m).collectionGuards := by
  unfold unbindAll
  simp only
  rw [binder_dropAll, (extends_logAll _ _ _ fun _ => rfl).binder, collectionGuards_modifyRegistry]

theorem collectionGuards_retire (s : Store) (n : Nat) : ((s.retire n).binder n).collectionGuards = [] := by
  unfold retire
  rw [binder_dropAll, binder_modifyBinder]
  split
  · rfl
  · next hn =>
    have hsize : ¬n < s.binders.size := fun hlt => hn ⟨rfl, hlt⟩
    rw [s.binder_of_size_le hsize]
    rfl

/-- Releasing keys one after the other takes away what stands under them. -/
theorem released_of_keys (s : Store) (n count : Nat) (keys : List (RecordId × BindingKey)) :
    Binder.Released keys false (s.binder n) ((keys.foldl (fun (s, count) (id, key) =>
      if ((s.binder n).registry.find? id key).isSome then (s.removeBinding n id key, count + 1)
      else (s, count)) (s, count)).1.binder n) := by
  induction keys generalizing s count with
  | nil => exact ⟨fun id => by simp, rfl⟩
  | cons entry rest ih =>
    obtain ⟨id, key⟩ := entry
    -- a key is gone after its turn, whether or not something stood under it; the rest follows by induction
    have hfirst : ∀ s' : Store, (∀ id', (s'.binder n).registry.bindingsOf id' =
        ((s.binder n).registry.bindingsOf id').filter fun x => ¬(id' = id ∧ x.key = key)) →
        (s'.binder n).collectionGuards = (s.binder n).collectionGuards → ∀ b,
        Binder.Released rest false (s'.binder n) b → Binder.Released ((id, key) :: rest) false (s.binder n) b := by
      intro s' hbindings hguards b hrest
      refine ⟨fun id' => ?_, by rw [hrest.guards, hguards]⟩
      rw [hrest.bindings, hbindings, List.filter_filter]
      refine List.filter_congr fun x _ => ?_
      rw [Bool.eq_iff_iff]
      simp [and_comm]
    rw [List.foldl_cons]
    simp only
    split
    · next hfound =>
      obtain ⟨e, he⟩ := entryOf?_of_find? hfound
      refine hfirst _ (fun id' => ?_) (s.collectionGuards_removeBinding n id key n) _ (ih _ _)
      rw [registry_removeBinding (lt_of_entryOf? he), if_pos rfl, Registry.bindingsOf_remove]
      by_cases hid : id' = id <;> simp [hid]
    · next hfound =>
      have habsent : (s.binder n).registry.find? id key = none := Option.not_isSome_iff_eq_none.mp hfound
      refine hfirst _ (fun id' => (List.filter_eq_self.mpr fun x hx => ?_).symm) rfl _ (ih _ _)
      refine decide_eq_true fun hsame => ?_
      rw [hsame.1] at hx
      exact List.find?_eq_none.mp habsent x hx (decide_eq_true hsame.2)

theorem released_of_release (s : Store) (n : Nat) (keys : List (RecordId × BindingKey)) (collections : Bool) :
    Binder.Released keys collections (s.binder n) ((s.release n keys collections).binder n) := by
  have hkeys := s.released_of_keys n 0 keys
  unfold release
  simp only
  split
  · next hcollections =>
    refine ⟨fun id => ?_, ?_⟩
    · rw [registry_leaveCollections, binder_log]
      exact hkeys.bindings id
    · rw [collectionGuards_leaveCollections, if_pos rfl, if_pos hcollections]
  · next hcollections =>
    rw [binder_log]
    exact ⟨hkeys.bindings, hkeys.guards.trans (if_neg hcollections).symm⟩

/-- **Unmounting** releases what the view owns. -/
theorem released_of_unmounting (s : Store) (v : Nat) :
    Binder.Released (s.view v).owned (s.view v).ownsCollection (s.binder (s.view v).binder)
      ((s.unmount v).binder (s.view v).binder) := by
  unfold unmount
  simp only
  split
  · exact released_of_release (s.modifyView v fun x => { x with owned := [], ownsCollection := false }) _ _ _
  · next hmounted =>
    have hnothing : (s.view v).owned = [] ∧ (s.view v).ownsCollection = false := by
      simpa [View.isMounted] using hmounted
    rw [hnothing.1, hnothing.2]
    exact ⟨fun id => by simp [modifyView, Store.binder], rfl⟩

theorem isMounted_eq_false {x : View} (h : x.holdings = ([], false)) : x.isMounted = false := by
  obtain ⟨howned, hcollection⟩ := Prod.mk.inj h
  simp only [View.isMounted, howned, hcollection, List.isEmpty_nil, Bool.not_true, Bool.or_false]

/-- A view that owns nothing takes nothing away. -/
theorem binder_unmount (s : Store) {v : Nat} (h : (s.view v).holdings = ([], false)) (k : Nat) :
    (s.unmount v).binder k = s.binder k := by
  unfold unmount
  simp only [isMounted_eq_false h, Bool.false_eq_true, if_false]
  rfl

/-- Unmounting acts on one binder. -/
theorem actsOf_unmountDeeds {v k : Nat} (hk : k ≠ (s.view v).binder) : actsOf k (s.unmountDeeds v) = [] := by
  have hne : ¬(s.view v).binder = k := Ne.symm hk
  unfold unmountDeeds
  simp only
  split
  · unfold releaseDeeds
    rw [actsOf_append]
    split <;> simp [actsOf, hne]
  · rfl

/-- **Dropping a view while its binder is still reached** is unmounting it. -/
theorem store_letGo (s : Store) (v : Nat) {names : List (String × Handle)}
    (h : names.any (fun entry => Workspace.reaches s (s.view v).binder entry.2) = true) :
    (Workspace.letGo ⟨s, names⟩ (.view v)).store = s.unmount v := by
  have hbinder : ∀ k, ((s.unmount v).view k).binder = (s.view k).binder := by
    intro k
    rw [view_of_views (s.views_unmount v) k, view_modifyView]
    split
    · next hk => rw [hk.1]
    · rfl
  have hreaches : Workspace.reaches (s.unmount v) (s.view v).binder = Workspace.reaches s (s.view v).binder := by
    funext handle
    cases handle <;> simp only [Workspace.reaches, hbinder]
  unfold Workspace.letGo Workspace.retireUnreached
  simp only [hreaches, h, if_true]

end Store

/-! ## What a binder gets -/

/-- An effect that acts on a binder acts on no other, and by one act. -/
theorem act_of_actsOf {n k : Nat} {act : Act} (h : actsOf n [.act k act] ≠ []) :
    n = k ∧ actsOf n [.act k act] = [act] := by
  by_cases hn : n = k
  · exact ⟨hn, by rw [hn, actsOf_act]⟩
  · exact absurd (actsOf_act_of_ne hn act) h

/-- A binder that lost bindings and listeners got none. -/
theorem Binder.since_of_subset {b b' : Binder} (acts : List Act)
    (hbindings : ∀ id, b'.registry.bindingsOf id ⊆ b.registry.bindingsOf id)
    (hguards : b'.collectionGuards ⊆ b.collectionGuards) : Since acts b b' :=
  ⟨fun id _ hx => .inl (hbindings id hx), fun _ hg => .inl (hguards hg)⟩

namespace Store

variable {s : Store} {n : Nat}

/-- **Making a binding** gives a binder what stands under its key, and takes the place of what stood there. -/
theorem since_commit (hn : n < s.binders.size) (p : Prepared) :
    Binder.Since [.bound p] (s.binder n) ((s.commit n { p with autoRender := false }).binder n) := by
  refine ⟨fun id x hx => ?_, fun g hg => .inl (by rwa [collectionGuards_commit] at hg)⟩
  obtain ⟨e, he, hbindings, -⟩ := opened_registry hn p
  rw [registry_commit hn, if_pos rfl, Registry.bindingsOf_insert (Option.isSome_iff_exists.mpr ⟨e, he⟩),
    hbindings] at hx
  split at hx
  · next hid =>
    obtain hx | hx := List.mem_append.mp hx
    · exact .inl (List.mem_filter.mp hx).1
    · rw [List.mem_singleton.mp hx]
      exact .inr ⟨p, List.mem_singleton_self _, hid.symm, rfl⟩
  · exact .inl hx

theorem since_removeBinding {id : RecordId} {key : BindingKey} (h : ((s.binder n).registry.find? id key).isSome)
    (acts : List Act) : Binder.Since acts (s.binder n) ((s.removeBinding n id key).binder n) := by
  obtain ⟨e, he⟩ := entryOf?_of_find? h
  refine Binder.since_of_subset acts (fun id' => ?_) (by rw [collectionGuards_removeBinding]; exact .refl _)
  rw [registry_removeBinding (lt_of_entryOf? he), if_pos rfl, Registry.bindingsOf_remove]
  split
  · exact List.filter_subset_self _
  · exact .refl _

theorem since_unbindAll (id : Option RecordId) (acts : List Act) :
    Binder.Since acts (s.binder n) ((s.unbindAll n id).binder n) := by
  refine Binder.since_of_subset acts (fun id' => ?_) (by rw [collectionGuards_unbindAll]; exact .refl _)
  rw [registry_unbindAll, if_pos rfl, Registry.bindingsOf_filter (fun x => !id.all (x = ·))]
  split
  · exact .refl _
  · exact List.nil_subset _

/-- **Joining a collection** gives a binder the two listeners there. -/
theorem since_listenCollection (hn : n < s.binders.size) (c : Nat) :
    Binder.Since [.joined c] (s.binder n) ((s.listenCollection n c).binder n) := by
  refine ⟨fun id x hx => .inl (by rwa [registry_listenCollection] at hx), fun g hg => ?_⟩
  unfold listenCollection at hg
  rw [binder_modifyBinder, if_pos ⟨rfl, hn⟩] at hg
  simp only [binder_subscribe] at hg
  obtain hg | hg := List.mem_append.mp hg
  · exact .inl hg
  · refine .inr ⟨c, List.mem_singleton_self _, ?_⟩
    obtain rfl | rfl := List.mem_pair.mp hg
    · exact .inl rfl
    · exact .inr rfl

theorem since_leaveCollections (acts : List Act) :
    Binder.Since acts (s.binder n) ((s.leaveCollections n).binder n) := by
  refine Binder.since_of_subset acts (fun id => by rw [registry_leaveCollections]; exact .refl _) ?_
  rw [collectionGuards_leaveCollections, if_pos rfl]
  exact List.nil_subset _

theorem since_retire (acts : List Act) : Binder.Since acts (s.binder n) ((s.retire n).binder n) := by
  refine Binder.since_of_subset acts (fun id => ?_) (by rw [collectionGuards_retire]; exact List.nil_subset _)
  rw [registry_retire, if_pos rfl]
  exact List.nil_subset _

end Store

/-- **What a binder gets by one effect** is due to its acts. -/
theorem Effect.since {a b : Scene} {ds : List Deed} (h : Effect a ds b) (ha : a.Sound) (n : Nat) :
    Binder.Since (actsOf n ds) (a.store.binder n) (b.store.binder n) := by
  by_cases hnone : actsOf n ds = []
  · have hfollows := (h.upkeep ha).1
    rw [hfollows.binder n hnone]
    exact .refl _ _
  -- from here on the binder is the one that the effect is about
  cases h with
  | @addedBinder s calls scope config =>
    obtain ⟨rfl, -⟩ := act_of_actsOf hnone
    refine Binder.since_of_subset _ (fun id => ?_) ?_ <;>
      (rw [binder_addBinder, if_pos rfl]; exact List.nil_subset _)
  | bound k p hlive =>
    obtain ⟨rfl, hacts⟩ := act_of_actsOf hnone
    rw [hacts]
    exact since_commit (lt_of_not_retired _ hlive) p
  | removed k id key h =>
    obtain ⟨rfl, -⟩ := act_of_actsOf hnone
    exact since_removeBinding h _
  | absent | heard => exact .refl _ _
  | cleared k id =>
    obtain ⟨rfl, -⟩ := act_of_actsOf hnone
    exact since_unbindAll id _
  | joined k c hlive =>
    obtain ⟨rfl, hacts⟩ := act_of_actsOf hnone
    rw [hacts]
    exact since_listenCollection (lt_of_not_retired _ hlive) c
  | left k =>
    obtain ⟨rfl, -⟩ := act_of_actsOf hnone
    exact since_leaveCollections _
  | retired k =>
    obtain ⟨rfl, -⟩ := act_of_actsOf hnone
    exact since_retire _
  | @rendered s calls k x =>
    have hbinder : (s.render k x).binder n = s.binder n := (s.keeps_render k x).binder n
    simp only [hbinder]
    exact .refl _ _
  | _ => exact absurd rfl hnone

/-- **What a binder gets by any effects** is due to their acts. -/
theorem Effects.since {a b : Scene} {ds : List Deed} (h : Effects a ds b) (ha : a.Sound) (n : Nat) :
    Binder.Since (actsOf n ds) (a.store.binder n) (b.store.binder n) := by
  induction h with
  | refl => exact .refl _ _
  | tail hbefore hlast ih =>
    rw [actsOf_append]
    exact ih.trans (hlast.since (hbefore.upkeep ha).2 n)

namespace Machine

variable {m m' start : Machine} {v : Nat} {turns : List Turn}

/-! ## The last mount -/

/-- None of some turns mounts a view. -/
def Leaves (m : Machine) (v : Nat) : List Turn → Prop
  | [] => True
  | t :: rest => ¬m.Mounts v t ∧ ∀ m', m.turn? t = some m' → m'.Leaves v rest

/-- **The last time that a view is mounted** in some turns: the states right before and right behind that turn, and
the turns that come later. -/
structure LastMount (start : Machine) (turns : List Turn) (v : Nat) (before behind : Machine) (later : List Turn) :
    Prop where
  mounted : ∃ earlier t, turns = earlier ++ t :: later ∧ start.walk? earlier = some before ∧
    before.Mounts v t ∧ before.turn? t = some behind
  left : behind.Leaves v later

theorem LastMount.cons {t : Turn} {next before behind : Machine} {later : List Turn} (hturn : start.turn? t = some next)
    (h : LastMount next turns v before behind later) : LastMount start (t :: turns) v before behind later := by
  obtain ⟨earlier, t', rfl, hwalk, hmounts⟩ := h.mounted
  refine ⟨⟨t :: earlier, t', rfl, ?_, hmounts⟩, h.left⟩
  simp only [walk?, hturn, Option.bind_some, hwalk]

/-- **A view owns what its last mount gave it, or nothing.** -/
theorem holdings_of_walk (h : start.walk? turns = some m) (v : Nat) :
    (∃ before behind later, LastMount start turns v before behind later ∧
      ((m.store.view v).holdings = (behind.store.view v).holdings ∨ (m.store.view v).holdings = ([], false))) ∨
      (start.Leaves v turns ∧
        ((m.store.view v).holdings = (start.store.view v).holdings ∨ (m.store.view v).holdings = ([], false))) := by
  induction turns generalizing start with
  | nil =>
    cases h
    exact .inr ⟨trivial, .inl rfl⟩
  | cons t rest ih =>
    obtain ⟨next, hturn, h⟩ := walk?_cons h
    obtain ⟨before, behind, later, hlast, howned⟩ | ⟨hleaves, howned⟩ := ih h
    · exact .inl ⟨before, behind, later, hlast.cons hturn, howned⟩
    · -- no later turn mounts the view, so this one is the last mount or there is none
      by_cases hmounts : start.Mounts v t
      · exact .inl ⟨start, next, rest, ⟨⟨[], t, rfl, rfl, hmounts, hturn⟩, hleaves⟩, howned⟩
      · refine .inr ⟨⟨hmounts, fun m' hm' => ?_⟩, ?_⟩
        · cases hturn.symm.trans hm'
          exact hleaves
        · obtain hsame | hnothing := howned
          · rw [hsame]
            exact holdings_of_turn hturn hmounts
          · exact .inr hnothing

/-- A run goes on behind the last mount. -/
theorem LastMount.walk {before behind : Machine} {later : List Turn} (hlast : LastMount start turns v before behind later)
    (h : start.walk? turns = some m) : behind.walk? later = some m := by
  obtain ⟨earlier, t, rfl, hwalk, -, hturn⟩ := hlast.mounted
  rwa [walk?_append, hwalk, Option.bind_some, walk?, hturn, Option.bind_some] at h

theorem LastMount.reached {before behind : Machine} {later : List Turn} (hlast : LastMount start turns v before behind later)
    (h : start.Reached) : before.Reached ∧ behind.Reached := by
  obtain ⟨earlier, t, -, hwalk, -, hturn⟩ := hlast.mounted
  have hbefore := h.walk hwalk
  have hone : before.walk? [t] = some behind := by simp only [walk?, hturn, Option.bind_some]
  exact ⟨hbefore, hbefore.walk hone⟩

/-- **What a mount creates** on its binder: the bindings of the view's plan, and listeners on the collection that the
view is of, if it is of one. There is nothing else on the binder then. -/
structure Creates (v : Nat) (before behind : Machine) : Prop where
  bindings : ∃ plan, before.store.planOf (before.store.view v).source (before.store.view v).bindings
      (before.store.binder (before.store.view v).binder).config.defaultEvent = .ok plan ∧
    ∀ id, List.Forall₂ Planned.Realized ((plan.filter (·.record = id)).pwFilter fun b b' => b.key ≠ b'.key)
      ((behind.store.binder (before.store.view v).binder).registry.bindingsOf id)
  channels : (behind.store.binder (before.store.view v).binder).collectionGuards.map (·.channel) =
    (before.store.view v).source.channels

theorem creates_of_mounts (hm : m.Reached) {t : Turn} (hmounts : m.Mounts v t) (hturn : m.turn? t = some m') :
    Creates v m m' ∧ (m'.store.view v).binder = (m.store.view v).binder ∧
      (m'.store.view v).holdings =
        ((m'.store.binder (m.store.view v).binder).keys, (m.store.view v).source.isCollection) := by
  have ha : Scene.Sound ⟨m.store, m.calls⟩ := hm.sound.scene
  have hmountable := hmounts.mountable
  obtain ⟨hok, hmount⟩ := mount_of_mountable hmountable
  have hstore := store_of_mounts hturn hmounts
  have hbinder : ∀ n, m'.store.binder n = (m.store.attached v).binder n := fun n => by
    rw [hstore, hmount]
    rfl
  obtain ⟨name, -, hname⟩ := hmounts.command
  obtain ⟨hv, hlive⟩ := Workspace.valid_view? hm.sound.named hname
  obtain ⟨ps, hps, -⟩ := checked_of_attach hmountable.map hmountable.source hok
  obtain ⟨plan, hplan, hchecked⟩ := planOf_of_checked hps
  refine ⟨⟨⟨plan, hplan, fun id => ?_⟩, ?_⟩, ?_, ?_⟩
  · rw [hbinder]
    exact realized_of_commits hchecked id
      (standing_of_attach ha hm.registered hlive (hm.sound.named.sourced v) hmountable.map hmountable.source hps id)
  · rw [hbinder]
    exact channels_of_attach ha hlive hmountable.map hmountable.source hok
  · rw [hstore, hmount, view_modifyView, views_attached, if_pos ⟨rfl, hv⟩]
    change ((m.store.attached v).view v).binder = (m.store.view v).binder
    simp only [view, views_attached]
  · have hholdings := view_mount_of_mountable hmountable v
    rw [if_pos rfl] at hholdings
    rw [hbinder, hstore]
    exact hholdings

/-! ## Unmounting after a run -/

/-- **What unmounting a view takes from its binder.** `created` is the binder right after the view's last mount, and
`acts` is what was done to it since. What stands under the keys that the mount created goes, and after a mount of a
collection every listener on collections. What goes was created by the mount, unless somebody bound under the same
key or joined a collection since. -/
structure Takes (created : Binder) (collections : Bool) (acts : List Act) (b b' : Binder) : Prop where
  bindings : ∀ id, b'.registry.bindingsOf id =
    (b.registry.bindingsOf id).filter fun x => x.key ∉ (created.registry.bindingsOf id).map (·.key)
  guards : b'.collectionGuards = if collections then [] else b.collectionGuards
  ownBindings : ∀ id, ∀ x ∈ b.registry.bindingsOf id, x ∉ b'.registry.bindingsOf id →
    (∀ p, Act.bound p ∈ acts → p.record = id → p.key ≠ x.key) → x ∈ created.registry.bindingsOf id
  ownGuards : ∀ g ∈ b.collectionGuards, g ∉ b'.collectionGuards → (∀ c, Act.joined c ∉ acts) →
    g ∈ created.collectionGuards

theorem takes_of_since {created b b' : Binder} (hcreated : created.registry.Tidy) {collections : Bool}
    {acts : List Act} (hreleased : Binder.Released created.keys collections b b')
    (hsince : Binder.Since acts created b) : Takes created collections acts b b' := by
  refine ⟨fun id => ?_, hreleased.guards, fun id x hx _ hnobody => ?_, fun g hg _ hnobody => ?_⟩
  · rw [hreleased.bindings]
    refine List.filter_congr fun x _ => ?_
    have hkeys : (id, x.key) ∈ created.keys ↔ x.key ∈ (created.registry.bindingsOf id).map (·.key) := by
      simp only [Binder.keys, List.mem_map, Prod.mk.injEq, hcreated.mem_bindingsOf, and_assoc]
    exact decide_eq_decide.mpr (not_congr hkeys)
  · obtain hmem | ⟨p, hp, hrecord, hkey⟩ := hsince.bindings id x hx
    · exact hmem
    · exact absurd hkey (hnobody p hp hrecord)
  · obtain hmem | ⟨c, hc, -⟩ := hsince.guards g hg
    · exact hmem
    · exact absurd hc (hnobody c)

/-- **What unmounting or dropping a view takes away**, in every state of every run, whatever the host, other views and
callbacks did to the binder before. Other binders stay as they are, and listeners whose guards the binder keeps stay
subscribed. A view that is not mounted takes nothing away; any other takes away what its last mount created, and what
has taken the place of that since. -/
theorem takes_of_unmount (h : initial.walk? turns = some m) (v : Nat) :
    let n := (m.store.view v).binder
    let after := m.store.unmount v
    ((∀ k, k ≠ n → after.binder k = m.store.binder k) ∧
      (∀ names : List (String × Handle), names.any (fun entry => Workspace.reaches m.store n entry.2) = true →
        (Workspace.letGo ⟨m.store, names⟩ (.view v)).store = after) ∧
      ∀ g l, l = .dropMember n ∨ l = .dropAll n → (after.Held g (.listener l) ↔
        g ∈ (after.binder n).collectionGuards ∧ l = Binder.collectionListener n g.channel)) ∧
    ((m.store.view v).isMounted = false ∧ after.binder n = m.store.binder n ∨
      ∃ before behind later, LastMount initial turns v before behind later ∧ (before.store.view v).binder = n ∧
        Creates v before behind ∧
        Takes (behind.store.binder n) (before.store.view v).source.isCollection (actsOf n (behind.deeds later))
          (m.store.binder n) (after.binder n)) := by
  intro n after
  have hm : m.Reached := ⟨turns, h⟩
  have ha : Scene.Sound ⟨m.store, m.calls⟩ := hm.sound.scene
  have hunmount : Effects ⟨m.store, m.calls⟩ (m.store.unmountDeeds v) ⟨after, m.calls⟩ := unmount_effects m.store v
  refine ⟨⟨fun k hk => (hunmount.follows ha).binder k (actsOf_unmountDeeds hk),
    fun names => store_letGo m.store v, fun g l => ?_⟩, ?_⟩
  · exact (hunmount.sound ha).store_wired.held_collection
  · obtain ⟨before, behind, later, hlast, howned⟩ | ⟨-, howned⟩ := holdings_of_walk h v
    · obtain hsame | hnothing := howned
      · have hwalk := hlast.walk h
        obtain ⟨hbefore, hbehind⟩ := hlast.reached ⟨[], rfl⟩
        obtain ⟨earlier, t, -, -, hmounts, hturn⟩ := hlast.mounted
        obtain ⟨hcreates, hbinder, hholdings⟩ := creates_of_mounts hbefore hmounts hturn
        have heffects := (walk_does hbehind.sound hwalk).effects
        have hthere : v < behind.store.views.size := by
          obtain ⟨name, -, hname⟩ := hmounts.command
          exact Nat.lt_of_lt_of_le (Workspace.valid_view? hbefore.sound.named hname).1
            ((does_turn hbefore.sound hturn).effects.follows hbefore.sound.scene).views
        -- a view never changes its binder, so what it was mounted on is what it is unmounted from
        have hn : (before.store.view v).binder = n :=
          hbinder.symm.trans ((heffects.follows hbehind.sound.scene).viewBinder v hthere).symm
        rw [hn] at hholdings
        obtain ⟨howned, hcollection⟩ := Prod.mk.inj (hsame.trans hholdings)
        have hreleased := m.store.released_of_unmounting v
        rw [howned, hcollection] at hreleased
        exact .inr ⟨before, behind, later, hlast, hn, hcreates,
          takes_of_since (hbehind.registered n).toTidy hreleased (heffects.since hbehind.sound.scene n)⟩
      · exact .inl ⟨isMounted_eq_false hnothing, binder_unmount m.store hnothing n⟩
    · have hnothing : (m.store.view v).holdings = ([], false) := howned.elim id id
      exact .inl ⟨isMounted_eq_false hnothing, binder_unmount m.store hnothing n⟩

/-- Two views of one binder, each of a collection with the same record, and the first of them mounted. -/
def sharing : List Turn :=
  [.command (.act (.tree (.make "tree" (.node (.ofTag "root") [])))), .step,
    .command (.act (.record (.make "record" [("a", .null), ("b", .null)]))), .step,
    .command (.act (.collection (.make "one" ["record"]))), .step,
    .command (.act (.collection (.make "two" ["record"]))), .step,
    .command (.act (.binder (.make "binder" "tree" (.given none none none)))), .step,
    .command (.act (.view (.make "first" (.shared "binder") (.collection "one")
      (.entries [("li", .property (.field "a"))])))), .step,
    .command (.act (.view (.make "second" (.shared "binder") (.collection "two")
      (.entries [("li", .property (.field "b"))])))), .step,
    .command (.act (.view (.mount "first"))), .step]

/-- A binding that is made under another key after the mount stays when the view is unmounted. -/
theorem takes_of_unmount_sharing :
    ∃ m before behind later,
      initial.walk? (sharing ++ [.command (.act (.binder (.bind "binder" "record" (.field "b") ⟨"", "title"⟩ .off
        false))), .step]) = some m ∧
      (m.store.binder 0).keys = [(⟨1⟩, ⟨"li:nth-of-type(1)", ""⟩), (⟨1⟩, ⟨"", "title"⟩)] ∧
      ((m.store.unmount 0).binder 0).keys = [(⟨1⟩, ⟨"", "title"⟩)] ∧
      LastMount initial (sharing ++ [.command (.act (.binder (.bind "binder" "record" (.field "b") ⟨"", "title"⟩ .off
        false))), .step]) 0 before behind later ∧
      Takes (behind.store.binder 0) (before.store.view 0).source.isCollection (actsOf 0 (behind.deeds later))
        (m.store.binder 0) ((m.store.unmount 0).binder 0) := by
  have hrun : (initial.walk? (sharing ++ [.command (.act (.binder (.bind "binder" "record" (.field "b") ⟨"", "title"⟩
      .off false))), .step])).map (fun m =>
        ((m.store.view 0).binder, (m.store.binder 0).keys, ((m.store.unmount 0).binder 0).keys)) =
      some (0, [(⟨1⟩, ⟨"li:nth-of-type(1)", ""⟩), (⟨1⟩, ⟨"", "title"⟩)], [(⟨1⟩, ⟨"", "title"⟩)]) := by rfl
  obtain ⟨m, h, heq⟩ := Option.map_eq_some_iff.mp hrun
  simp only [Prod.mk.injEq] at heq
  obtain ⟨hbinder, hkeys, hkeys'⟩ := heq
  obtain ⟨-, ⟨-, hsame⟩ | ⟨before, behind, later, hlast, -, -, htakes⟩⟩ := takes_of_unmount h 0
  · rw [hbinder] at hsame
    rw [hsame, hkeys] at hkeys'
    exact absurd hkeys' (by decide)
  · rw [hbinder] at htakes
    exact ⟨m, before, behind, later, h, hkeys, hkeys', hlast, htakes⟩

/-- **A view takes away what another view mounted later**: the second view owns its binding and listens to its
collection, and both are gone once the first view is unmounted. -/
theorem unmount_takes_later_mount :
    ∃ m m', initial.walk? sharing = some m ∧
      m.walk? [.command (.act (.view (.mount "second"))), .step] = some m' ∧
      ((m.store.binder 0).registry.bindingsOf ⟨1⟩).map (·.accessor.field?) = [some "a"] ∧
      ((m'.store.binder 0).registry.bindingsOf ⟨1⟩).map (·.accessor.field?) = [some "b"] ∧
      (m'.store.view 1).holdings = ([(⟨1⟩, ⟨"li:nth-of-type(1)", ""⟩)], true) ∧
      (m'.store.binder 0).collectionGuards.map (·.channel) = [.removals 1, .resets 1] ∧
      ((m'.store.unmount 0).binder 0).keys = [] ∧ ((m'.store.unmount 0).binder 0).collectionGuards = [] ∧
      ((m'.store.unmount 0).roster (.removals 1)).liveCount = 0 := by
  have hrun : (initial.walk? sharing).map (fun m => ((m.store.binder 0).registry.bindingsOf ⟨1⟩).map
        (·.accessor.field?)) = some [some "a"] := by rfl
  have hrun' : (initial.walk? (sharing ++ [.command (.act (.view (.mount "second"))), .step])).map (fun m' =>
        (((m'.store.binder 0).registry.bindingsOf ⟨1⟩).map (·.accessor.field?), (m'.store.view 1).holdings,
          (m'.store.binder 0).collectionGuards.map (·.channel),
          ((m'.store.unmount 0).binder 0).keys, ((m'.store.unmount 0).binder 0).collectionGuards,
          ((m'.store.unmount 0).roster (.removals 1)).liveCount)) =
      some ([some "b"], ([(⟨1⟩, ⟨"li:nth-of-type(1)", ""⟩)], true), [.removals 1, .resets 1], [], [], 0) := by rfl
  obtain ⟨m, h, hbefore⟩ := Option.map_eq_some_iff.mp hrun
  obtain ⟨m', h', hbehind⟩ := Option.map_eq_some_iff.mp hrun'
  simp only [Prod.mk.injEq] at hbehind
  rw [walk?_append, h, Option.bind_some] at h'
  exact ⟨m, m', h, h', hbefore, hbehind⟩

end Machine

end Databind
