import Databind.Proofs.Standing
import Mathlib.Data.List.Flatten
import Mathlib.Data.List.Pairwise

/-!
# `Proofs.Accounting` — the live listeners of binders

When no notification and no dispatch is in progress, a listener is live exactly if it is held, and binders hold
what their registries call for: two listeners on each record that is alive and has bindings, and a handler for
each binding that writes back. Nothing else of theirs is live anywhere, and nothing at all once no name reaches
them.
-/

namespace Databind

open Store

/-- The binder that a listener is a reaction of. -/
def Listener.binder? : Listener → Option Nat
  | .callback _ => none
  | .repaint n _ | .repaintAll n _ | .dropMember n | .dropAll n => some n

theorem Listener.not_isCallback {l : Listener} {n : Nat} (h : l.binder? = some n) :
    ¬(Hearer.listener l).IsCallback := by
  rintro ⟨k, rfl⟩
  cases h

/-- A binder keeps a guard for one of its bindings. -/
def Binder.Owns (b : Binder) (g : Guard) : Prop := ∃ x ∈ b.registry.bindings, x.guard = some g

instance (b : Binder) : DecidablePred b.Owns := fun g =>
  inferInstanceAs (Decidable (∃ x ∈ b.registry.bindings, x.guard = some g))

/-! ## Posts by channel -/

namespace Binder

variable {n : Nat} {b : Binder}

theorem mem_posts {p : Post} : p ∈ b.posts n ↔
    (∃ x ∈ b.registry.bindings, p ∈ x.posts b.scope.root) ∨
    (∃ e ∈ b.registry, p = (e.onChange, .listener (.repaint n e.record)) ∨
      p = (e.onRequest, .listener (.repaintAll n e.record))) ∨
    ∃ g ∈ b.collectionGuards, p = (g, .listener (collectionListener n g.channel)) := by
  simp only [posts, Registry.bindings, Registry.Entry.posts, List.mem_append, List.mem_flatMap, List.mem_map,
    List.mem_cons, List.not_mem_nil, or_false, eq_comm (a := p)]
  grind

theorem Fit.binding (hb : b.Fit) {x : Binding} (hx : x ∈ b.registry.bindings) : x.Fit b.scope.tree := by
  obtain ⟨e, he, hx⟩ := List.mem_flatMap.mp hx
  exact (hb.entries e he).bindings x hx

theorem mem_binding_posts {root : Nat} {x : Binding} {g : Guard} {y : Hearer} :
    (g, y) ∈ x.posts root ↔ x.guard = some g ∧ y = .handler (x.delegation root) := by
  simp [Binding.posts, eq_comm]

/-- Who listens to changes of a record for a binder: the entry of the record. -/
theorem mem_posts_changes (hb : b.Fit) {id : RecordId} {i : Nat} {y : Hearer} :
    (⟨.changes id, i⟩, y) ∈ b.posts n ↔
      ∃ e ∈ b.registry, e.record = id ∧ e.onChange = ⟨.changes id, i⟩ ∧ y = .listener (.repaint n id) := by
  rw [mem_posts]
  constructor
  · rintro (⟨x, hx, hpost⟩ | ⟨e, he, hpost | hpost⟩ | ⟨g, hg, hpost⟩)
    · have hchannel := (hb.binding hx).channel _ (mem_binding_posts.mp hpost).1
      cases hchannel
    · obtain ⟨hguard, rfl⟩ := Prod.mk.inj hpost
      have hchannel := (hb.entries e he).onChange
      rw [← hguard] at hchannel
      cases hchannel
      exact ⟨e, he, rfl, hguard.symm, rfl⟩
    · have hchannel := (hb.entries e he).onRequest
      rw [← (Prod.mk.inj hpost).1] at hchannel
      cases hchannel
    · obtain ⟨c, hc | hc⟩ := hb.collections g hg <;> rw [← (Prod.mk.inj hpost).1] at hc <;> cases hc
  · rintro ⟨e, he, rfl, hguard, rfl⟩
    exact .inr (.inl ⟨e, he, .inl (by rw [hguard])⟩)

theorem mem_posts_requests (hb : b.Fit) {id : RecordId} {i : Nat} {y : Hearer} :
    (⟨.requests id, i⟩, y) ∈ b.posts n ↔
      ∃ e ∈ b.registry, e.record = id ∧ e.onRequest = ⟨.requests id, i⟩ ∧
        y = .listener (.repaintAll n id) := by
  rw [mem_posts]
  constructor
  · rintro (⟨x, hx, hpost⟩ | ⟨e, he, hpost | hpost⟩ | ⟨g, hg, hpost⟩)
    · have hchannel := (hb.binding hx).channel _ (mem_binding_posts.mp hpost).1
      cases hchannel
    · have hchannel := (hb.entries e he).onChange
      rw [← (Prod.mk.inj hpost).1] at hchannel
      cases hchannel
    · obtain ⟨hguard, rfl⟩ := Prod.mk.inj hpost
      have hchannel := (hb.entries e he).onRequest
      rw [← hguard] at hchannel
      cases hchannel
      exact ⟨e, he, rfl, hguard.symm, rfl⟩
    · obtain ⟨c, hc | hc⟩ := hb.collections g hg <;> rw [← (Prod.mk.inj hpost).1] at hc <;> cases hc
  · rintro ⟨e, he, rfl, hguard, rfl⟩
    exact .inr (.inl ⟨e, he, .inr (by rw [hguard])⟩)

/-- Who handles events of a tree for a binder: the bindings that keep a guard. -/
theorem mem_posts_delegations (hb : b.Fit) {t i : Nat} {y : Hearer} :
    (⟨.delegations t, i⟩, y) ∈ b.posts n ↔
      ∃ x ∈ b.registry.bindings, x.guard = some ⟨.delegations t, i⟩ ∧
        y = .handler (x.delegation b.scope.root) := by
  rw [mem_posts]
  constructor
  · rintro (⟨x, hx, hpost⟩ | ⟨e, he, hpost | hpost⟩ | ⟨g, hg, hpost⟩)
    · exact ⟨x, hx, mem_binding_posts.mp hpost⟩
    · have hchannel := (hb.entries e he).onChange
      rw [← (Prod.mk.inj hpost).1] at hchannel
      cases hchannel
    · have hchannel := (hb.entries e he).onRequest
      rw [← (Prod.mk.inj hpost).1] at hchannel
      cases hchannel
    · obtain ⟨c, hc | hc⟩ := hb.collections g hg <;> rw [← (Prod.mk.inj hpost).1] at hc <;> cases hc
  · rintro ⟨x, hx, hpost⟩
    exact .inl ⟨x, hx, mem_binding_posts.mpr hpost⟩

/-- The listeners among a binder's posts are its reactions. -/
theorem binder?_of_mem_posts {g : Guard} {l : Listener} (h : (g, .listener l) ∈ b.posts n) :
    l.binder? = some n := by
  rcases mem_posts.mp h with ⟨x, -, hpost⟩ | ⟨e, -, hpost | hpost⟩ | ⟨g', -, hpost⟩
  · cases (mem_binding_posts.mp hpost).2
  · cases (Prod.mk.inj hpost).2
    rfl
  · cases (Prod.mk.inj hpost).2
    rfl
  · cases (Prod.mk.inj hpost).2
    unfold collectionListener
    split <;> rfl

end Binder

namespace Store

/-- **The listeners of a binder are what its registry calls for**: two on each record that is alive and has
bindings, and a handler for each binding that writes back, all of them in the binder's tree. -/
structure Accounted (s : Store) (n : Nat) : Prop where
  changes : ∀ id, ((s.record id).changes.live.filter (·.listener.binder? = some n)).map (·.listener) =
    if (s.record id).alive = true ∧ (s.binder n).registry.bindingsOf id ≠ [] then [.repaint n id] else []
  requests : ∀ id, ((s.record id).requests.live.filter (·.listener.binder? = some n)).map (·.listener) =
    if (s.record id).alive = true ∧ (s.binder n).registry.bindingsOf id ≠ [] then [.repaintAll n id] else []
  handlers : (((s.tree (s.binder n).scope.tree).delegations.live.filter fun e =>
      (s.binder n).Owns ⟨.delegations (s.binder n).scope.tree, e.id⟩).map (·.listener)).Perm
    (((s.binder n).registry.bindings.filter (·.writesBack)).map (·.delegation (s.binder n).scope.root))
  scope : ∀ g, (s.binder n).Owns g → g.channel = .delegations (s.binder n).scope.tree

variable {s : Store}

/-- Nobody is pinned on a channel. -/
def Calm (s : Store) (ch : Channel) : Prop := (s.roster ch).PinsBelow fun _ => 0

/-- A channel is calm when no call list runs on it. -/
theorem calm_of_calls {calls : List (Channel × List Nat)} (h : Scene.Pinned ⟨s, calls⟩) {ch : Channel}
    (hcalls : ∀ call ∈ calls, call.1 ≠ ch) : s.Calm ch := by
  refine (h ch).mono fun id => Nat.le_of_eq (List.countP_eq_zero.mpr fun call hcall hpinned => ?_)
  exact hcalls call hcall (decide_eq_true_iff.mp hpinned).1

theorem calm_of_sound (h : Scene.Sound ⟨s, []⟩) (ch : Channel) : s.Calm ch :=
  calm_of_calls h.pinned fun _ hcall => absurd hcall List.not_mem_nil

/-- The live listeners of a binder on a channel are those it has posts for. -/
theorem live_of_posts (h : s.Wired []) {ch : Channel} (hpins : s.Calm ch) {r : Roster Listener}
    (hroster : s.roster ch = r.map .listener) (n : Nat) {xs : List (Nat × Listener)} (hxs : xs.Nodup)
    (hposts : ∀ i l, (i, l) ∈ xs ↔ (⟨ch, i⟩, .listener l) ∈ (s.binder n).posts n ∧ s.Open ch) :
    ((r.live.filter (·.listener.binder? = some n)).map fun e => (e.id, e.listener)).Perm xs := by
  have hsound := h.rosters ch
  rw [Calm, hroster] at hpins
  rw [hroster] at hsound
  refine Roster.live_perm (p := fun _ l => l.binder? = some n) (Roster.sound_of_map hsound) hpins.of_map hxs
    fun i l => ?_
  have hinj : Function.Injective Hearer.listener := fun _ _ h => Hearer.listener.inj h
  rw [hposts, ← Roster.holds_map hinj, ← hroster, decide_eq_true_iff]
  constructor
  · rintro ⟨hpost, hopen⟩
    have hbinder := Binder.binder?_of_mem_posts hpost
    refine ⟨(h.held ⟨ch, i⟩ _ (Listener.not_isCallback hbinder)).mpr ⟨?_, hopen⟩, hbinder⟩
    rw [List.append_nil, mem_posts]
    exact ⟨n, hpost⟩
  · rintro ⟨hheld, hbinder⟩
    obtain ⟨hpost, hopen⟩ := (h.held ⟨ch, i⟩ _ (Listener.not_isCallback hbinder)).mp hheld
    rw [List.append_nil, mem_posts] at hpost
    obtain ⟨m, hpost⟩ := hpost
    have hsame := (Binder.binder?_of_mem_posts hpost).symm.trans hbinder
    cases hsame
    exact ⟨hpost, hopen⟩

/-- A listener that each entry of a binder's registry has on its record: it is live exactly if the record is
alive and has bindings. -/
theorem live_of_entry (h : s.Wired []) {n : Nat} (hr : (s.binder n).registry.Sound) {ch : Channel}
    (hpins : s.Calm ch) {r : Roster Listener} (hroster : s.roster ch = r.map .listener) {id : RecordId} {l : Listener}
    (hopen : s.Open ch ↔ (s.record id).alive = true) {guardOf : Registry.Entry → Guard}
    (hchannel : ∀ e ∈ (s.binder n).registry, e.record = id → (guardOf e).channel = ch)
    (hposts : ∀ i y, (⟨ch, i⟩, y) ∈ (s.binder n).posts n ↔
      ∃ e ∈ (s.binder n).registry, e.record = id ∧ guardOf e = ⟨ch, i⟩ ∧ y = .listener l) :
    (r.live.filter (·.listener.binder? = some n)).map (·.listener) =
      if (s.record id).alive = true ∧ (s.binder n).registry.bindingsOf id ≠ [] then [l] else [] := by
  have hlisteners : (r.live.filter (·.listener.binder? = some n)).map (·.listener) =
      ((r.live.filter (·.listener.binder? = some n)).map fun e => (e.id, e.listener)).map Prod.snd := by
    rw [List.map_map]
    rfl
  rw [hlisteners]
  split
  · next hif =>
    -- the record has one entry, so its guard is the only one on the channel
    obtain ⟨e, he, hid⟩ := hr.bindingsOf_ne_nil.mp hif.2
    have hperm := live_of_posts h hpins hroster n (List.nodup_singleton ((guardOf e).id, l)) fun i l' => by
      rw [hposts, hopen, List.mem_singleton]
      constructor
      · rintro heq
        obtain ⟨rfl, rfl⟩ := Prod.mk.inj heq
        refine ⟨⟨e, he, hid, ?_, rfl⟩, hif.1⟩
        rw [← hchannel e he hid]
      · rintro ⟨⟨e', he', hid', hguard, heq⟩, -⟩
        rw [List.inj_on_of_nodup_map hr.records he he' (hid.trans hid'.symm), hguard, Hearer.listener.inj heq]
    rw [List.perm_singleton.mp hperm]
    rfl
  · next hif =>
    -- no entry has the record, or the record is dead and its channel closed
    have hperm := live_of_posts h hpins hroster n List.nodup_nil fun i l' => by
      rw [hposts, hopen]
      refine ⟨fun hno => absurd hno List.not_mem_nil, ?_⟩
      rintro ⟨⟨e, he, hid, -⟩, halive⟩
      exact absurd ⟨halive, hr.bindingsOf_ne_nil.mpr ⟨e, he, hid⟩⟩ hif
    rw [List.perm_nil.mp hperm]
    rfl

/-- **The listener for changes of a record** is live exactly if the record is alive and has bindings. -/
theorem live_changes (h : s.Wired []) {n : Nat} (hr : (s.binder n).registry.Sound) {id : RecordId}
    (hpins : s.Calm (.changes id)) :
    ((s.record id).changes.live.filter (·.listener.binder? = some n)).map (·.listener) =
      if (s.record id).alive = true ∧ (s.binder n).registry.bindingsOf id ≠ [] then [.repaint n id] else [] := by
  have hfit := h.fit n
  refine live_of_entry h hr hpins rfl Iff.rfl (fun e he hid => ?_) fun i y => Binder.mem_posts_changes hfit
  rw [(hfit.entries e he).onChange, hid]

theorem live_requests (h : s.Wired []) {n : Nat} (hr : (s.binder n).registry.Sound) {id : RecordId}
    (hpins : s.Calm (.requests id)) :
    ((s.record id).requests.live.filter (·.listener.binder? = some n)).map (·.listener) =
      if (s.record id).alive = true ∧ (s.binder n).registry.bindingsOf id ≠ [] then [.repaintAll n id] else [] := by
  have hfit := h.fit n
  refine live_of_entry h hr hpins rfl Iff.rfl (fun e he hid => ?_) fun i y => Binder.mem_posts_requests hfit
  rw [(hfit.entries e he).onRequest, hid]

/-- The listener for changes of a record is live even while others are called, if the record is alive and has
bindings. -/
theorem mem_live_changes (h : s.Wired []) {n : Nat} (hr : (s.binder n).registry.Sound) {id : RecordId}
    (halive : (s.record id).alive = true) (hbound : (s.binder n).registry.bindingsOf id ≠ []) :
    .repaint n id ∈ (s.record id).changes.live.map (·.listener) := by
  obtain ⟨e, he, rfl⟩ := hr.bindingsOf_ne_nil.mp hbound
  have hguard : e.onChange = ⟨.changes e.record, e.onChange.id⟩ := by
    rw [← ((h.fit n).entries e he).onChange]
  have hpost : (⟨.changes e.record, e.onChange.id⟩, .listener (.repaint n e.record)) ∈ s.posts ++ [] := by
    rw [List.append_nil, mem_posts]
    exact ⟨n, (Binder.mem_posts_changes (h.fit n)).mpr ⟨e, he, rfl, hguard, rfl⟩⟩
  have hheld := (h.held _ _ (Listener.not_isCallback rfl)).mpr ⟨hpost, halive⟩
  have hinj : Function.Injective Hearer.listener := fun _ _ h => Hearer.listener.inj h
  obtain ⟨entry, hentry, -, hlistener, hisheld⟩ := (Roster.holds_map hinj _).mp hheld
  have hlive : entry.isLive = true := by
    rw [Roster.Entry.isLive, hisheld, Bool.true_or]
  exact List.mem_map.mpr ⟨entry, List.mem_filter.mpr ⟨hentry, hlive⟩, hlistener⟩

/-! ## Guards of handlers -/

/-- No binder keeps a guard twice. -/
theorem Wired.nodup_posts (h : s.Wired []) (n : Nat) : (((s.binder n).posts n).map Prod.fst).Nodup := by
  have hnodup := h.nodup
  rw [List.append_nil, posts, List.map_flatMap, List.nodup_flatMap] at hnodup
  by_cases hn : n < s.binders.size
  · exact hnodup.1 n (List.mem_range.mpr hn)
  · rw [s.binder_of_size_le hn]
    exact List.nodup_nil

/-- No two binders keep the same guard. -/
theorem Wired.post_unique (h : s.Wired []) {n m : Nat} {g : Guard} {x y : Hearer}
    (hx : (g, x) ∈ (s.binder n).posts n) (hy : (g, y) ∈ (s.binder m).posts m) : n = m := by
  have hsize {k : Nat} {z : Hearer} (hz : (g, z) ∈ (s.binder k).posts k) : k ∈ List.range s.binders.size := by
    refine List.mem_range.mpr (Classical.byContradiction fun hk => ?_)
    rw [s.binder_of_size_le hk] at hz
    exact absurd hz List.not_mem_nil
  have hnodup := h.nodup
  rw [List.append_nil, posts, List.map_flatMap, List.nodup_flatMap] at hnodup
  have hsymm : Std.Symm (Function.onFun List.Disjoint fun k => ((s.binder k).posts k).map Prod.fst) :=
    ⟨fun _ _ h _ ha hb => h hb ha⟩
  by_contra hne
  have hdisjoint := hnodup.2.forall (hsize hx) (hsize hy) hne
  exact hdisjoint (List.mem_map.mpr ⟨_, hx, rfl⟩) (List.mem_map.mpr ⟨_, hy, rfl⟩)

/-- The handlers of a binder's bindings, by their guards. -/
def handlerPosts (b : Binder) : List (Nat × Delegation) :=
  b.registry.bindings.filterMap fun x => x.guard.map fun g => (g.id, x.delegation b.scope.root)

theorem mem_handlerPosts {b : Binder} (hb : b.Fit) {i : Nat} {d : Delegation} :
    (i, d) ∈ handlerPosts b ↔ ∃ x ∈ b.registry.bindings,
      x.guard = some ⟨.delegations b.scope.tree, i⟩ ∧ x.delegation b.scope.root = d := by
  unfold handlerPosts
  rw [List.mem_filterMap]
  constructor
  · rintro ⟨x, hx, heq⟩
    obtain ⟨g, hg, heq⟩ := Option.map_eq_some_iff.mp heq
    obtain ⟨rfl, rfl⟩ := Prod.mk.inj heq
    refine ⟨x, hx, ?_, rfl⟩
    rw [hg, ← (hb.binding hx).channel g hg]
  · rintro ⟨x, hx, hg, rfl⟩
    exact ⟨x, hx, by rw [hg]; rfl⟩

theorem nodup_handlerPosts (h : s.Wired []) (n : Nat) : (handlerPosts (s.binder n)).Nodup := by
  have hfit := h.fit n
  have hguards : ((handlerPosts (s.binder n)).map fun p =>
      (⟨.delegations (s.binder n).scope.tree, p.1⟩ : Guard)) =
        (s.binder n).registry.bindings.filterMap (·.guard) := by
    unfold handlerPosts
    rw [List.map_filterMap]
    refine List.filterMap_congr fun x hx => ?_
    cases hg : x.guard with
    | none => rfl
    | some g => simp only [Option.map_some, ← (hfit.binding hx).channel g hg]
  refine List.Nodup.of_map (fun p => (⟨.delegations (s.binder n).scope.tree, p.1⟩ : Guard)) ?_
  rw [hguards, Registry.bindings, List.filterMap_flatMap]
  refine (h.nodup_posts n).sublist ?_
  rw [guards_binder]
  refine List.Sublist.trans ?_ (List.sublist_append_left _ _)
  exact List.Sublist.flatMap_right _ fun e _ => List.sublist_append_left _ _

theorem handlers_of_handlerPosts {b : Binder} (hb : b.Fit) :
    (handlerPosts b).map Prod.snd = (b.registry.bindings.filter (·.writesBack)).map (·.delegation b.scope.root) := by
  have hguard : ∀ x ∈ b.registry.bindings, x.guard.isSome = x.writesBack := fun x hx => (hb.binding hx).guard
  unfold handlerPosts
  generalize b.registry.bindings = xs at hguard
  induction xs with
  | nil => rfl
  | cons x rest ih =>
    have hrest := ih fun y hy => hguard y (List.mem_cons_of_mem _ hy)
    have hx := hguard x List.mem_cons_self
    cases hg : x.guard with
    | none =>
      rw [hg] at hx
      simp only [List.filterMap_cons, hg, Option.map_none, List.filter_cons, ← hx, hrest]
      rfl
    | some g =>
      rw [hg] at hx
      simp only [List.filterMap_cons, hg, Option.map_some, List.filter_cons, ← hx, List.map_cons, hrest]
      rfl

/-- A handler that a binder has a guard for is held. -/
theorem holds_handler (h : s.Wired []) {n : Nat} {x : Binding} (hx : x ∈ (s.binder n).registry.bindings) {i : Nat}
    (hguard : x.guard = some ⟨.delegations (s.binder n).scope.tree, i⟩) :
    (s.tree (s.binder n).scope.tree).delegations.Holds i (x.delegation (s.binder n).scope.root) := by
  have hinj : Function.Injective Hearer.handler := fun _ _ h => Hearer.handler.inj h
  refine (Roster.holds_map hinj _).mp ((h.held ⟨.delegations _, i⟩ _ ?_).mpr ⟨?_, trivial⟩)
  · rintro ⟨k, hk⟩
    cases hk
  · rw [List.append_nil, mem_posts]
    exact ⟨n, (Binder.mem_posts_delegations (h.fit n)).mpr ⟨x, hx, hguard, rfl⟩⟩

/-- **The live handlers that a binder owns are those of its bindings that write back.** -/
theorem live_handlers (h : Scene.Sound ⟨s, []⟩) (n : Nat) :
    (((s.tree (s.binder n).scope.tree).delegations.live.filter fun e =>
        (s.binder n).Owns ⟨.delegations (s.binder n).scope.tree, e.id⟩).map (·.listener)).Perm
      (((s.binder n).registry.bindings.filter (·.writesBack)).map (·.delegation (s.binder n).scope.root)) := by
  have hfit := h.wired.fit n
  have hsound := Roster.sound_of_map (h.wired.rosters (.delegations (s.binder n).scope.tree))
  have hpins := (calm_of_sound h (.delegations (s.binder n).scope.tree)).of_map
  have hperm := Roster.live_perm
    (p := fun i _ => decide ((s.binder n).Owns ⟨.delegations (s.binder n).scope.tree, i⟩))
    hsound hpins (nodup_handlerPosts h.wired n) fun i d => by
      rw [mem_handlerPosts hfit, decide_eq_true_iff]
      constructor
      · rintro ⟨x, hx, hguard, rfl⟩
        exact ⟨holds_handler h.wired hx hguard, x, hx, hguard⟩
      · rintro ⟨hholds, x, hx, hguard⟩
        exact ⟨x, hx, hguard, hsound.holds_unique (holds_handler h.wired hx hguard) hholds⟩
  have hlisteners := hperm.map Prod.snd
  rw [handlers_of_handlerPosts hfit, List.map_map] at hlisteners
  exact hlisteners

/-- **Every live handler that writes back is owned by exactly one binder**, in whose tree it is. -/
theorem owner_of_handler (h : Scene.Sound ⟨s, []⟩) {t : Nat} {e : Roster.Entry Delegation}
    (he : e ∈ (s.tree t).delegations.live) {context : WriteBack} (hhandler : e.listener.handler = .writeBack context) :
    ∃ n, ((s.binder n).scope.tree = t ∧ (s.binder n).Owns ⟨.delegations t, e.id⟩) ∧
      ∀ m, (s.binder m).Owns ⟨.delegations t, e.id⟩ → m = n := by
  have hinj : Function.Injective Hearer.handler := fun _ _ h => Hearer.handler.inj h
  obtain ⟨hmem, hlive⟩ := List.mem_filter.mp he
  have hheld : e.held = true :=
    (Roster.isLive_eq_held (calm_of_sound h (.delegations t)).of_map hmem).symm.trans hlive
  have hreaction : ¬(Hearer.handler e.listener).IsCallback := by
    rintro ⟨k, hk⟩
    rw [hhandler] at hk
    cases hk
  have hholds : s.Held ⟨.delegations t, e.id⟩ (.handler e.listener) :=
    (Roster.holds_map hinj _).mpr ⟨e, hmem, rfl, rfl, hheld⟩
  have hpost := ((h.wired.held _ _ hreaction).mp hholds).1
  rw [List.append_nil, mem_posts] at hpost
  obtain ⟨n, hpost⟩ := hpost
  obtain ⟨x, hx, hguard, -⟩ := (Binder.mem_posts_delegations (h.wired.fit n)).mp hpost
  have hchannel := ((h.wired.fit n).binding hx).channel _ hguard
  refine ⟨n, ⟨(Channel.delegations.inj hchannel).symm, x, hx, hguard⟩, fun m hm => ?_⟩
  obtain ⟨y, hy, hguard'⟩ := hm
  have hpost' := (Binder.mem_posts_delegations (n := m) (h.wired.fit m)).mpr ⟨y, hy, hguard', rfl⟩
  exact h.wired.post_unique hpost' hpost

/-- **Every binder is accounted for** when nobody is pinned. -/
theorem accounted (h : Scene.Sound ⟨s, []⟩) {n : Nat} (hr : (s.binder n).registry.Sound) : s.Accounted n where
  changes id := live_changes h.wired hr (calm_of_sound h _)
  requests id := live_requests h.wired hr (calm_of_sound h _)
  handlers := live_handlers h n
  scope g := by
    rintro ⟨x, hx, hguard⟩
    exact ((h.wired.fit n).binding hx).channel g hguard

/-- **A binder without bindings** has no live listeners on records and owns no handlers. -/
theorem Accounted.of_empty {n : Nat} (h : s.Accounted n) (hempty : (s.binder n).registry = []) :
    (∀ id, (s.record id).changes.live.filter (·.listener.binder? = some n) = [] ∧
      (s.record id).requests.live.filter (·.listener.binder? = some n) = []) ∧
    ∀ g, ¬(s.binder n).Owns g := by
  have hnone : ∀ id, ¬((s.record id).alive = true ∧ (s.binder n).registry.bindingsOf id ≠ []) := by
    rintro id ⟨-, hne⟩
    rw [hempty] at hne
    exact hne rfl
  refine ⟨fun id => ⟨?_, ?_⟩, ?_⟩
  · have hchanges := h.changes id
    rw [if_neg (hnone id)] at hchanges
    exact List.map_eq_nil_iff.mp hchanges
  · have hrequests := h.requests id
    rw [if_neg (hnone id)] at hrequests
    exact List.map_eq_nil_iff.mp hrequests
  · rintro g ⟨x, hx, -⟩
    rw [hempty] at hx
    exact absurd hx List.not_mem_nil

end Store

namespace Machine

variable {m : Machine}

theorem Reached.registered (h : m.Reached) : m.store.Registered := by
  obtain ⟨turns, hwalk⟩ := h
  exact (registered_of_walk hwalk).1

/-- A binder that no name reaches has an empty registry. -/
theorem Reached.registry_of_unreached (h : m.Reached) {n : Nat}
    (hnames : ∀ entry ∈ m.session.workspace.names, Workspace.reaches m.store n entry.2 = false) :
    (m.store.binder n).registry = [] := by
  cases hretired : (m.store.binder n).retired with
  | true => exact ((h.sound.scene.wired.fit n).retired hretired).1
  | false =>
    rcases h.sound.named.reached n hretired with ⟨entry, hentry, hreaches⟩ | ⟨_, hnone, -⟩
    · have hno := (hnames entry hentry).symm.trans hreaches
      cases hno
    · cases hnone

theorem scene_of_quiet (h : m.Reached) (hquiet : m.Quiet) : Scene.Sound ⟨m.store, []⟩ := by
  have hscene := h.sound.scene
  unfold Quiet at hquiet
  rw [hquiet] at hscene
  exact hscene

/-- **Listeners are accounted for** in every state of every run in which no notification and no dispatch is in
progress: each binder has those that its registry calls for, every handler that writes back is owned by one
binder, and a binder that no name reaches has none at all. -/
theorem accounted_of_quiet (h : m.Reached) (hquiet : m.Quiet) :
    (∀ n, m.store.Accounted n) ∧
    (∀ t, ∀ e ∈ (m.store.tree t).delegations.live, ∀ context, e.listener.handler = .writeBack context →
      ∃ n, ((m.store.binder n).scope.tree = t ∧ (m.store.binder n).Owns ⟨.delegations t, e.id⟩) ∧
        ∀ k, (m.store.binder k).Owns ⟨.delegations t, e.id⟩ → k = n) ∧
    ∀ n, (∀ entry ∈ m.session.workspace.names, Workspace.reaches m.store n entry.2 = false) →
      (∀ id, (m.store.record id).changes.live.filter (·.listener.binder? = some n) = [] ∧
        (m.store.record id).requests.live.filter (·.listener.binder? = some n) = []) ∧
      ∀ g, ¬(m.store.binder n).Owns g := by
  have hscene := scene_of_quiet h hquiet
  have haccounted : ∀ n, m.store.Accounted n := fun n => accounted hscene (h.registered n)
  refine ⟨haccounted, fun t e he context hhandler => owner_of_handler hscene he hhandler, fun n hnames => ?_⟩
  exact (haccounted n).of_empty (h.registry_of_unreached hnames)

/-- A bound record has one listener of the binder for its changes, and none once the binder is dropped. -/
theorem accounted_of_quiet_dropped :
    (∃ m, initial.walk? rebound = some m ∧
      (m.store.record ⟨1⟩).changes.live.map (·.listener) = [.repaint 0 ⟨1⟩] ∧ m.store.Accounted 0) ∧
    ∃ m, initial.walk? (rebound ++ [.command (.act (.name (.drop "binder"))), .step]) = some m ∧
      ∀ g, ¬(m.store.binder 0).Owns g := by
  constructor
  · have hrun : (initial.walk? rebound).map
        (fun m => (m.calls, (m.store.record ⟨1⟩).changes.live.map (·.listener))) =
          some ([], [.repaint 0 ⟨1⟩]) := by rfl
    obtain ⟨m, hwalk, heq⟩ := Option.map_eq_some_iff.mp hrun
    obtain ⟨hquiet, hlive⟩ := Prod.mk.inj heq
    exact ⟨m, hwalk, hlive, (accounted_of_quiet ⟨_, hwalk⟩ hquiet).1 0⟩
  · have hrun : (initial.walk? (rebound ++ [.command (.act (.name (.drop "binder"))), .step])).map
        (fun m => (m.calls,
          m.session.workspace.names.all fun entry => !Workspace.reaches m.store 0 entry.2)) =
          some ([], true) := by rfl
    obtain ⟨m, hwalk, heq⟩ := Option.map_eq_some_iff.mp hrun
    obtain ⟨hquiet, hnames⟩ := Prod.mk.inj heq
    have hnames : ∀ entry ∈ m.session.workspace.names, Workspace.reaches m.store 0 entry.2 = false := by
      simpa using hnames
    exact ⟨m, hwalk, ((accounted_of_quiet ⟨_, hwalk⟩ hquiet).2.2 0 hnames).2⟩

end Machine

end Databind
