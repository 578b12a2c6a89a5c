import Databind.Proofs.Rewiring

/-!
# `Proofs.Upkeep` — what every effect preserves

A scene is sound (`Scene.Sound`) if the posts of binders and their listeners belong together and nobody is pinned
but those on the call lists that are running. An effect on a sound scene changes nothing that its deeds leave out,
and leaves a sound scene (`Effect.upkeep`); there is one lemma for each kind of effect. By induction the same holds
of any sequence of effects (`Effects.upkeep`).
-/

namespace Databind

namespace Store

variable (s : Store)

theorem extends_select (scope : Scope) (text : String) : s.Extends (s.select scope text).1 := by
  unfold select
  split
  · exact .refl s
  · split
    · exact .refl s
    · exact s.extends_log _ rfl

theorem exists_select (scope : Scope) (text : String) :
    ∃ s' found, s.select scope text = (s', found) ∧ s.Extends s' :=
  ⟨_, _, rfl, s.extends_select scope text⟩

/-- Rendering changes elements and the journal only. -/
theorem keeps_render (n : Nat) (b : Binding) : s.Keeps (s.render n b) := by
  have hselect := ((s.observe (.query b.key.selector)).extends_select (s.binder n).scope b.key.selector).toKeeps
  have hquery := (s.extends_observe (.query b.key.selector)).toKeeps.trans hselect
  unfold render
  simp only
  split
  · exact hquery.trans (keeps_journal _ _)
  · exact (hquery.trans (keeps_journal _ _)).trans (keeps_modifyArena _ _ _)

theorem follows_commitRecord (id : RecordId) (b : Record.Batch) :
    Follows [.wrote id] s (s.modifyRecord id (·.commit b)) := by
  have hrecord : ∀ id', ((s.modifyRecord id (·.commit b)).record id').changes = (s.record id').changes ∧
      ((s.modifyRecord id (·.commit b)).record id').requests = (s.record id').requests ∧
      ((s.modifyRecord id (·.commit b)).record id').alive = (s.record id').alive := by
    intro id'
    rw [record_modifyRecord]
    split
    · next h => rw [h.1]; exact ⟨rfl, rfl, rfl⟩
    · exact ⟨rfl, rfl, rfl⟩
  have hother : ∀ id', Deed.wrote id' ∉ [Deed.wrote id] →
      (s.modifyRecord id (·.commit b)).record id' = s.record id' := by
    intro id' hds
    have hne : id' ≠ id := fun h => hds (h ▸ List.mem_singleton_self _)
    simp only [record_modifyRecord, hne, false_and, if_false]
  refine { Follows.refl [.wrote id] s with
    records := Nat.le_of_eq (Array.size_modify ..).symm
    fields := fun id' _ hds => congrArg Record.fields (hother id' hds)
    alive := fun id' _ _ => (hrecord id').2.2
    dead := fun id' _ h => by rwa [(hrecord id').2.2] at h
    version := fun id' hds => congrArg Record.version (hother id' hds)
    proper := fun id' hds hproper => by rwa [Store.fields, hother id' hds]
    rosters := fun ch => ?_ }
  · cases ch with
    | changes id' => simp only [roster, (hrecord id').1]; exact .refl _
    | requests id' => simp only [roster, (hrecord id').2.1]; exact .refl _
    | _ => exact .refl _

theorem roster_commitRecord (id : RecordId) (b : Record.Batch) (ch : Channel) :
    (s.modifyRecord id (·.commit b)).roster ch = s.roster ch := by
  cases ch with
  | changes id' | requests id' =>
    simp only [roster, record_modifyRecord]
    split
    · next h => rw [h.1]; rfl
    · rfl
  | _ => rfl

theorem alive_destroy (id id' : RecordId) :
    ((s.modifyRecord id Record.destroy).record id').alive = true ↔ (s.record id').alive = true ∧ id' ≠ id := by
  rw [record_modifyRecord]
  by_cases hid : id' = id
  · subst hid
    by_cases hlt : id'.number < s.records.size
    · simp [hlt, Record.destroy]
    · simp only [hlt, and_false, if_false, ne_eq, not_true_eq_false, iff_false]
      exact fun h => hlt (s.lt_of_alive h)
  · simp [hid]

theorem follows_destroyRecord (id : RecordId) :
    Follows [.destroyed id] s (s.modifyRecord id Record.destroy) := by
  have hkept : ∀ id', ((s.modifyRecord id Record.destroy).record id').fields = (s.record id').fields ∧
      ((s.modifyRecord id Record.destroy).record id').version = (s.record id').version := by
    intro id'
    rw [record_modifyRecord]
    split
    · next h => rw [h.1]; exact ⟨rfl, rfl⟩
    · exact ⟨rfl, rfl⟩
  refine { Follows.refl [.destroyed id] s with
    records := Nat.le_of_eq (Array.size_modify ..).symm
    fields := fun id' _ _ => (hkept id').1
    alive := fun id' _ hds => ?_
    dead := fun id' _ h => ((s.alive_destroy id id').mp h).1
    version := fun id' _ => (hkept id').2
    proper := fun id' _ hproper => by rwa [Store.fields, (hkept id').1]
    rosters := fun ch => ?_ }
  · have hne : id' ≠ id := fun h => hds (h ▸ List.mem_singleton_self _)
    simp only [record_modifyRecord, hne, false_and, if_false]
  · rw [roster_destroy]
    split
    · exact Roster.grows_clear _
    · exact .refl _

/-- Destroying a record ends all listening to it. -/
theorem Wired.destroy {s : Store} {l : List Post} (h : s.Wired l) (id : RecordId) :
    (s.modifyRecord id Record.destroy).Wired l where
  rosters ch := by
    rw [roster_destroy]
    split
    · exact Roster.sound_clear
    · exact h.rosters ch
  nodup := h.nodup
  fresh p hp := Nat.lt_of_lt_of_le (h.fresh p hp) ((s.follows_destroyRecord id).rosters _).next
  held g x hx := by
    have hopen : (s.modifyRecord id Record.destroy).Open g.channel ↔
        s.Open g.channel ∧ ¬(g.channel = .changes id ∨ g.channel = .requests id) := by
      cases g.channel <;> simp [Open, alive_destroy]
    have hheld : (s.modifyRecord id Record.destroy).Held g x ↔
        s.Held g x ∧ ¬(g.channel = .changes id ∨ g.channel = .requests id) := by
      unfold Held
      rw [roster_destroy]
      split
      · next hch => simp [hch, Roster.holds_clear]
      · next hch => simp [hch]
    rw [hopen, hheld, h.held g x hx, and_assoc]
    exact Iff.rfl
  fit := h.fit
  scopes := h.scopes

/-- A new binder has no posts. -/
theorem posts_addBinder (s : Store) (scope : Scope) (config : Config) :
    (s.addBinder (.ofScope scope config)).posts = s.posts := by
  have hsize : (s.addBinder (.ofScope scope config)).binders.size = s.binders.size + 1 := by
    simp [Store.addBinder]
  have hnew : ([s.binders.size].flatMap fun n =>
      ((s.addBinder (.ofScope scope config)).binder n).posts n) = [] := by
    simp [binder_addBinder, Binder.posts, Binder.ofScope]
  unfold posts
  rw [hsize, List.range_succ, List.flatMap_append, hnew, List.append_nil]
  refine List.flatMap_congr fun n hn => ?_
  rw [binder_addBinder, if_neg (Nat.ne_of_lt (List.mem_range.mp hn))]

theorem Wired.addBinder {s : Store} {l : List Post} (h : s.Wired l) {scope : Scope} (config : Config)
    (hscope : scope.tree < s.trees.size) : (s.addBinder (.ofScope scope config)).Wired l := by
  have hposts := s.posts_addBinder scope config
  constructor
  case rosters => exact h.rosters
  case nodup => rw [hposts]; exact h.nodup
  case fresh =>
    intro p hp
    exact h.fresh p (hposts ▸ hp)
  case held =>
    intro g x hx
    rw [hposts]
    exact h.held g x hx
  case fit =>
    intro n
    rw [binder_addBinder]
    split
    · exact ⟨Registry.sound_nil.toTidy, fun _ he => absurd he (by simp [Binder.ofScope]),
        fun _ hg => absurd hg (by simp [Binder.ofScope]), fun _ => ⟨rfl, rfl⟩⟩
    · exact h.fit n
  case scopes =>
    intro n hn
    rw [binder_addBinder] at hn ⊢
    split at hn
    · next heq => rw [if_pos heq]; exact hscope
    · next hne => rw [if_neg hne]; exact h.scopes n hn

end Store

/-! ## Every effect -/

open Store

/-- A change of listeners that holds and drops nothing of a binder's. -/
theorem Store.Wired.uniform {s : Store} {l : List Post} (h : s.Wired l) {f : {α : Type} → Roster α → Roster α}
    (hf : Roster.Uniform f) (hsound : ∀ r : Roster Hearer, r.Sound → (f r).Sound)
    (hgrows : ∀ r : Roster Hearer, r.Grows (f r)) (ch : Channel)
    (hholds : ∀ id x, ¬x.IsCallback → ((f (s.roster ch)).Holds id x ↔ (s.roster ch).Holds id x)) :
    (s.modifyRoster ch f).Wired l := by
  refine h.congr (follows_modifyRoster [] hf hgrows ch) (fun _ => List.not_mem_nil)
    (by cases ch <;> rfl) (fun ch' hs => ?_) fun g x hx => ?_
  · rw [roster_modifyRoster s hf]
    split
    · next heq => exact hsound _ (heq ▸ hs)
    · exact hs
  · unfold Held
    rw [roster_modifyRoster s hf]
    split
    · next heq =>
      rw [heq]
      exact hholds _ x hx
    · exact Iff.rfl

/-- A callback of the host listens: nothing changes for binders. -/
theorem Store.Wired.callback {s s' : Store} {l : List Post} (h : s.Wired l) (hfollows : Follows [] s s')
    (hbinders : s'.binders = s.binders) {ch : Channel} {x : Hearer} (hx : x.IsCallback)
    (hroster : ∀ ch', s'.roster ch' = s.roster ch' ∨ ch' = ch ∧ s'.roster ch' = (s.roster ch).subscribe x) :
    s'.Wired l := by
  refine h.congr hfollows (fun _ => List.not_mem_nil) hbinders (fun ch' hs => ?_) fun g y hy => ?_
  · rcases hroster ch' with heq | ⟨rfl, heq⟩
    · rwa [heq]
    · rw [heq]
      exact Roster.sound_subscribe hs x
  · unfold Held
    rcases hroster g.channel with heq | ⟨hch, heq⟩
    · rw [heq]
    · rw [heq, Roster.holds_subscribe, hch]
      refine ⟨fun h => h.resolve_right ?_, .inl⟩
      rintro ⟨-, rfl⟩
      exact hy hx

theorem Store.roster_subscribe_or (s : Store) (ch : Channel) (l : Listener) (ch' : Channel) :
    (s.subscribe ch l).1.roster ch' = s.roster ch' ∨
      ch' = ch ∧ (s.subscribe ch l).1.roster ch' = (s.roster ch).subscribe (.listener l) := by
  cases hch : ch.tree? with
  | some n =>
    cases ch with
    | delegations n => exact .inl rfl
    | _ => cases hch
  | none =>
    rw [roster_subscribe s l hch]
    split
    · next h => exact .inr ⟨h.1, rfl⟩
    · exact .inl rfl

theorem Store.roster_attachHandler_or (s : Store) (scope : Scope) (event : String)
    (selector : Option Selector) (handler : EventHandler) (ch : Channel) :
    (s.attachHandler scope event selector handler).1.roster ch = s.roster ch ∨
      ch = .delegations scope.tree ∧ (s.attachHandler scope event selector handler).1.roster ch =
        (s.roster (.delegations scope.tree)).subscribe
          (.handler ⟨event, selector, scope.root, handler⟩) := by
  rw [roster_attachHandler]
  split
  · next h => exact .inr ⟨h.1, rfl⟩
  · exact .inl rfl

theorem Roster.pinsBelow_of_subscribe {r₀ r r' : Roster Hearer} {x : Hearer} {ch ch' : Channel}
    {bound : Nat → Nat} (hp : r.PinsBelow bound) (h : r' = r ∨ ch' = ch ∧ r' = r₀.subscribe x)
    (hsame : ch' = ch → r₀ = r) : r'.PinsBelow bound := by
  rcases h with rfl | ⟨hch, rfl⟩
  · exact hp
  · rw [hsame hch]
    exact hp.subscribe x

/-- Binders do not listen on free lists. -/
theorem Store.Wired.not_posted_on_list {s : Store} (h : s.Wired []) (n id : Nat) (x : Hearer) :
    (⟨.list n, id⟩, x) ∉ s.posts ++ [] := by
  rw [List.append_nil, mem_posts]
  rintro ⟨m, hmem⟩
  have hguard : (⟨.list n, id⟩ : Guard) ∈ ((s.binder m).posts m).map Prod.fst := List.mem_map.mpr ⟨_, hmem, rfl⟩
  rw [guards_binder] at hguard
  have hfit := h.fit m
  rcases List.mem_append.mp hguard with hguard | hguard
  · obtain ⟨e, he, hguard⟩ := List.mem_flatMap.mp hguard
    have hentry := hfit.entries e he
    rcases List.mem_append.mp hguard with hguard | hguard
    · obtain ⟨b, hb, hguard⟩ := List.mem_filterMap.mp hguard
      simpa using (hentry.bindings b hb).channel _ hguard
    · rcases List.mem_pair.mp hguard with heq | heq
      · simpa [← heq] using hentry.onChange
      · simpa [← heq] using hentry.onRequest
  · obtain ⟨c, hc | hc⟩ := hfit.collections _ hguard
    · simp at hc
    · simp at hc

/-- How many running call lists pin a listener. -/
def pinsOf (calls : List (Channel × List Nat)) (ch : Channel) (id : Nat) : Nat :=
  calls.countP fun call => call.1 = ch ∧ id ∈ call.2

/-- No listener is pinned but by the call lists that are running. -/
def Scene.Pinned (a : Scene) : Prop := ∀ ch, (a.store.roster ch).PinsBelow (pinsOf a.calls ch)

/-- A change that pins nobody. -/
theorem Scene.Pinned.mono {s s' : Store} {calls : List (Channel × List Nat)} (h : Scene.Pinned ⟨s, calls⟩)
    (hpins : ∀ ch bound, (s.roster ch).PinsBelow bound → (s'.roster ch).PinsBelow bound) :
    Scene.Pinned ⟨s', calls⟩ := fun ch => hpins ch _ (h ch)

/-- **Drawing up a call list pins those on it once more.** -/
theorem Scene.Pinned.draw {s : Store} {calls : List (Channel × List Nat)} (h : Scene.Pinned ⟨s, calls⟩)
    (ch : Channel) (ids : List Nat) :
    Scene.Pinned ⟨s.modifyRoster ch fun r => r.prune.pin ids, (ch, ids) :: calls⟩ := by
  intro ch'
  simp only
  rw [roster_modifyRoster s (Roster.uniform_draw ids)]
  split
  · next heq =>
    refine ((h ch).prune.pin ids).mono fun id => Nat.le_of_eq ?_
    simp [pinsOf, List.countP_cons, heq]
  · next hne =>
    refine (h ch').mono fun id => Nat.le_of_eq ?_
    have hne' : ¬ch = ch' := fun heq => hne heq.symm
    simp [pinsOf, hne']

/-- **Finishing a call list takes its pins back.** -/
theorem Scene.Pinned.finish {s : Store} {calls : List (Channel × List Nat)} {ch : Channel} {ids : List Nat}
    (h : Scene.Pinned ⟨s, (ch, ids) :: calls⟩) : Scene.Pinned ⟨s.finish ch ids, calls⟩ := by
  intro ch'
  simp only [Store.finish]
  rw [roster_modifyRoster s (Roster.uniform_unpin ids)]
  split
  · next heq =>
    rw [heq]
    refine Roster.PinsBelow.unpin ((h ch).mono fun id => Nat.le_of_eq ?_)
    simp [pinsOf, List.countP_cons]
  · next hne =>
    refine (h ch').mono fun id => Nat.le_of_eq ?_
    have hne' : ¬ch = ch' := fun heq => hne heq.symm
    simp [pinsOf, hne']

/-- Posts and listeners agree, and nobody is pinned but by the call lists that are running. -/
structure Scene.Sound (a : Scene) : Prop where
  wired : a.store.Wired []
  pinned : a.Pinned

section

variable {s s' : Store} {calls : List (Channel × List Nat)}

/-! One lemma for each way in which effects change a store. -/

theorem Scene.Sound.keeps (ha : Scene.Sound ⟨s, calls⟩) (ds : List Deed) (hk : s.Keeps s') :
    Follows ds s s' ∧ Scene.Sound ⟨s', calls⟩ :=
  ⟨hk.follows ds, ha.wired.of_keeps hk, ha.pinned.mono fun ch _ => by rw [hk.roster]; exact id⟩

theorem Scene.Sound.rewires (ha : Scene.Sound ⟨s, calls⟩) {n : Nat} {act : Act}
    (hr : Rewires n act (s, []) (s', [])) : Follows [.act n act] s s' ∧ Scene.Sound ⟨s', calls⟩ :=
  ⟨hr.follows, hr.wired ha.wired, ha.pinned.mono fun _ _ => hr.pinsBelow⟩

/-- New values of a record touch no listener. -/
theorem Scene.Sound.commitRecord (ha : Scene.Sound ⟨s, calls⟩) (id : RecordId) (b : Record.Batch) :
    Follows [.wrote id] s (s.modifyRecord id (·.commit b)) ∧
      Scene.Sound ⟨s.modifyRecord id (·.commit b), calls⟩ := by
  have hfollows := s.follows_commitRecord id b
  have hroster := s.roster_commitRecord id b
  refine ⟨hfollows, ?_, ha.pinned.mono fun ch _ hp => by rwa [hroster]⟩
  exact ha.wired.congr hfollows (by simp) rfl (fun ch hs => by rwa [hroster]) fun g x _ => by
    simp only [Held, hroster]

theorem Scene.Sound.destroyRecord (ha : Scene.Sound ⟨s, calls⟩) (id : RecordId) :
    Follows [.destroyed id] s (s.modifyRecord id Record.destroy) ∧
      Scene.Sound ⟨s.modifyRecord id Record.destroy, calls⟩ := by
  refine ⟨s.follows_destroyRecord id, ha.wired.destroy id, ha.pinned.mono fun ch _ hp => ?_⟩
  rw [roster_destroy]
  split
  · exact Roster.pinsBelow_clear _ _
  · exact hp

/-- A callback of the host joins one list. -/
theorem Scene.Sound.callback (ha : Scene.Sound ⟨s, calls⟩) (ds : List Deed) (hfollows : ∀ ds, Follows ds s s')
    (hbinders : s'.binders = s.binders) {ch : Channel} {x : Hearer} (hx : x.IsCallback)
    (hroster : ∀ ch', s'.roster ch' = s.roster ch' ∨ ch' = ch ∧ s'.roster ch' = (s.roster ch).subscribe x) :
    Follows ds s s' ∧ Scene.Sound ⟨s', calls⟩ :=
  ⟨hfollows ds, ha.wired.callback (hfollows []) hbinders hx hroster,
    ha.pinned.mono fun ch' _ hp => Roster.pinsBelow_of_subscribe hp (hroster ch') fun h => h ▸ rfl⟩

/-- A guard of the host is dropped: no post of a binder is under it. -/
theorem Scene.Sound.drop (ha : Scene.Sound ⟨s, calls⟩) (ds : List Deed) {g : Guard}
    (hg : ∀ x, s.Held g x → x.IsCallback) : Follows ds s (s.drop g) ∧ Scene.Sound ⟨s.drop g, calls⟩ := by
  refine ⟨follows_drop ds g, ?_, ha.pinned.mono fun ch _ hp => pinsBelow_drop hp g⟩
  refine ha.wired.congr (follows_drop [] g) (fun _ => List.not_mem_nil) (Wired.binders_drop s g)
    (fun ch hs => Wired.sound_drop g ch hs) fun g' x hx => ?_
  rw [Wired.held_drop]
  exact ⟨fun h => h.1, fun h => ⟨h, fun heq => hx (hg x (heq ▸ h))⟩⟩

/-- A free list is emptied: no binder listens there. -/
theorem Scene.Sound.clearList (ha : Scene.Sound ⟨s, calls⟩) (ds : List Deed) (n : Nat) :
    Follows ds s (s.modifyRoster (.list n) Roster.clear) ∧
      Scene.Sound ⟨s.modifyRoster (.list n) Roster.clear, calls⟩ := by
  refine ⟨follows_modifyRoster ds Roster.uniform_clear (fun r => r.grows_clear) (.list n), ?_,
    ha.pinned.mono fun ch _ hp => ?_⟩
  · refine ha.wired.uniform Roster.uniform_clear (fun _ _ => Roster.sound_clear) (fun r => r.grows_clear) (.list n)
      fun id x hx => ⟨fun h => absurd h (Roster.holds_clear _), fun h => ?_⟩
    exact absurd ((ha.wired.held ⟨.list n, id⟩ x hx).mp h).1 (ha.wired.not_posted_on_list n id x)
  · rw [roster_modifyRoster s Roster.uniform_clear]
    split
    · exact Roster.pinsBelow_clear _ _
    · exact hp

/-- A call list is drawn up: nobody joins or leaves. -/
theorem Scene.Sound.draw (ha : Scene.Sound ⟨s, calls⟩) (ds : List Deed) (ch : Channel) (ids : List Nat) :
    Follows ds s (s.modifyRoster ch fun r => r.prune.pin ids) ∧
      Scene.Sound ⟨s.modifyRoster ch fun r => r.prune.pin ids, (ch, ids) :: calls⟩ := by
  have hu := Roster.uniform_draw ids
  refine ⟨follows_modifyRoster ds hu (fun r => r.grows_draw _) ch, ?_, ha.pinned.draw ch ids⟩
  exact ha.wired.uniform hu (fun _ hs => Roster.sound_pin (Roster.sound_prune hs) _) (fun r => r.grows_draw _) ch
    fun _ _ _ => (Roster.holds_pin _ _).trans (Roster.holds_prune _)

theorem Scene.Sound.finish {ch : Channel} {ids : List Nat} (ha : Scene.Sound ⟨s, (ch, ids) :: calls⟩)
    (ds : List Deed) : Follows ds s (s.finish ch ids) ∧ Scene.Sound ⟨s.finish ch ids, calls⟩ := by
  have hu := Roster.uniform_unpin ids
  refine ⟨follows_modifyRoster ds hu (fun r => r.grows_unpin _) ch, ?_, ha.pinned.finish⟩
  exact ha.wired.uniform hu (fun _ hs => Roster.sound_unpin hs _) (fun r => r.grows_unpin _) ch
    fun _ _ _ => Roster.holds_unpin _ _

end

/-- **One effect**: nothing changes that the deeds leave out, posts and listeners stay together, and nobody is
pinned but by running call lists. -/
theorem Effect.upkeep {a b : Scene} {ds : List Deed} (h : Effect a ds b) (ha : a.Sound) :
    Follows ds a.store b.store ∧ b.Sound := by
  have hw := ha.wired
  cases h with
  | absent | heard => exact ⟨.refl _ _, ha⟩
  | extended h => exact ha.keeps _ h.toKeeps
  | @strayed s calls k f => exact ha.keeps _ (s.keeps_modifyArena k f)
  | @read s => exact ha.keeps _ (s.keeps_journal .empty)
  | @rendered s calls n b =>
    dsimp only
    exact ha.keeps _ (s.keeps_render n b)
  | wrote id b => exact ha.commitRecord id b
  | destroyed id => exact ha.destroyRecord id
  | addedBinder scope config hscope => exact ⟨follows_addBinder _, hw.addBinder config hscope, ha.pinned⟩
  -- what is done to a binder changes its posts and its listeners alike
  | bound n p hlive halive hfield =>
    exact ha.rewires (commit_rewires (lt_of_not_retired _ hlive) (hw.fit n) hlive (hw.scopes n hlive) halive hfield)
  | removed n id key h => exact ha.rewires (removeBinding_rewires (hw.fit n) h)
  | cleared n id => exact ha.rewires (unbindAll_rewires (hw.fit n) id)
  | joined n c hlive hc =>
    exact ha.rewires (listenCollection_rewires (lt_of_not_retired _ hlive) (hw.fit n) hlive hc)
  | left n => exact ha.rewires (leaveCollections_rewires (hw.fit n))
  | retired n => exact ha.rewires retire_rewires
  -- what is done to a list for the host touches no post
  | @subscribed s calls ch k =>
    exact ha.callback (x := .listener (.callback k)) _ (fun _ => follows_subscribe _ ch _) (by cases ch <;> rfl)
      ⟨k, rfl⟩ (s.roster_subscribe_or ch (.callback k))
  | @delegated s calls scope event selector k =>
    exact ha.callback (x := .handler ⟨event, selector, scope.root, .callback k⟩) _
      (fun _ => follows_attachHandler _ scope event selector _) rfl ⟨k, rfl⟩
      (s.roster_attachHandler_or scope event selector (.callback k))
  | dropped g hg => exact ha.drop _ hg
  | clearedList n => exact ha.clearList _ n
  | drew ch => exact ha.draw _ ch _
  | drewEvent n event target => exact ha.draw _ (.delegations n) _
  | finished ch ids => exact ha.finish _

/-- **Any effects**: what the deeds leave out has not happened, and the scene is sound again. -/
theorem Effects.upkeep {a b : Scene} {ds : List Deed} (h : Effects a ds b) (ha : a.Sound) :
    Follows ds a.store b.store ∧ b.Sound := by
  induction h with
  | refl => exact ⟨.refl _ _, ha⟩
  | tail _ hlast ih =>
    obtain ⟨hfollows, hsound⟩ := ih
    obtain ⟨hfollows', hsound'⟩ := hlast.upkeep hsound
    exact ⟨hfollows.append hfollows', hsound'⟩

section

variable {s s' : Store} {calls calls' : List (Channel × List Nat)} {ds : List Deed}

theorem Scene.Sound.store_wired (h : Scene.Sound ⟨s, calls⟩) : s.Wired [] := h.wired

theorem Effects.follows (h : Effects ⟨s, calls⟩ ds ⟨s', calls'⟩) (ha : Scene.Sound ⟨s, calls⟩) :
    Follows ds s s' := (h.upkeep ha).1

theorem Effects.sound (h : Effects ⟨s, calls⟩ ds ⟨s', calls'⟩) (ha : Scene.Sound ⟨s, calls⟩) :
    Scene.Sound ⟨s', calls'⟩ := (h.upkeep ha).2

end

end Databind
