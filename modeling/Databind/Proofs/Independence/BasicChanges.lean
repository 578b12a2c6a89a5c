import Databind.Proofs.Independence.StoreComparison

/-!
# `Proofs.Independence.BasicChanges` — basic changes of twins

The same change made to both of two twins leaves them twins: of the journal, of a record, a collection or a tree, of a
roster, and of what a binder other than the stranger keeps.

## Main definitions

* `Store.Hushed` — nothing has changed but the journal.
-/

namespace Databind.Store

variable {b : Stranger} {s s' t t' u u' : Store}

/-! ## The journal -/

/-- Nothing has changed but the journal. -/
def Hushed (s t : Store) : Prop := ∃ j, t = { s with journal := j }

namespace Hushed

theorem refl (s : Store) : s.Hushed s := ⟨s.journal, rfl⟩

theorem trans (h : s.Hushed t) (h' : t.Hushed u) : s.Hushed u := by
  obtain ⟨j, rfl⟩ := h
  obtain ⟨j', rfl⟩ := h'
  exact ⟨j', rfl⟩

theorem log (s : Store) (notice : Notice) : s.Hushed (s.log notice) := ⟨_, rfl⟩

theorem observe (s : Store) (event : Event) : s.Hushed (s.observe event) := ⟨_, rfl⟩

theorem logAll (s : Store) (notices : List Notice) : s.Hushed (s.logAll notices) := by
  induction notices generalizing s with
  | nil => exact .refl s
  | cons notice rest ih => exact (log s notice).trans (ih _)

/-- Warnings that fields are missing are notices. -/
theorem warnMissing (s : Store) (config : Config) (id : RecordId) (triggers : Option (List String)) :
    s.Hushed (s.warnMissing config id triggers) := by
  unfold Store.warnMissing
  split
  · exact logAll s _
  · exact .refl s

/-- A query is a notice at most: it reads a tree, and changes none. -/
theorem select (s : Store) (scope : Scope) (text : String) : s.Hushed (s.select scope text).1 := by
  unfold Store.select
  split
  · exact .refl s
  · split
    · exact .refl s
    · exact log s _

end Hushed

/-- **Notices may differ on both sides**: nobody reads them. -/
theorem Twin.hushed (h : s.Twin b s') (ht : s.Hushed t) (ht' : s'.Hushed t') : Paired b s s' t t' := by
  obtain ⟨j, rfl⟩ := ht
  obtain ⟨j', rfl⟩ := ht'
  exact h.paired_of_rosters h.outline (fun _ => id) (fun ch _ => s.roster_congr rfl rfl rfl rfl ch)
    (fun ch _ => s'.roster_congr rfl rfl rfl rfl ch) rfl rfl

namespace Paired

theorem refl (h : s.Twin b s') : Paired b s s' s s' := h.hushed (.refl s) (.refl s')

theorem trans (h : Paired b s s' t t') (h' : Paired b t t' u u') : Paired b s s' u u' :=
  ⟨h'.twin, fun ch hch => h'.there ch (h.there ch hch), fun ch _ _ hids => h'.ties ch _ _ (h.ties ch _ _ hids)⟩

/-- Notices that come behind a change. -/
theorem hushed (h : Paired b s s' t t') (hu : t.Hushed u) (hu' : t'.Hushed u') : Paired b s s' u u' :=
  h.trans (h.twin.hushed hu hu')

/-- **Guards that stand for the same listener** do so after the change. -/
theorem guard (h : Paired b s s' t t') {g g' : Guard} (hg : s.SameGuard b s' g g') : t.SameGuard b t' g g' :=
  ⟨hg.channel, h.ties _ _ _ hg.tied⟩

theorem guards (h : Paired b s s' t t') {gs gs' : List Guard} (hgs : List.Forall₂ (s.SameGuard b s') gs gs') :
    List.Forall₂ (t.SameGuard b t') gs gs' := hgs.imp fun _ _ => h.guard

end Paired

/-! ## Rosters -/

/-- A change of an object leaves as many of them. -/
theorem sizes_modifyRecord (id : RecordId) (f : Record → Record) : (s.modifyRecord id f).sizes = s.sizes := by
  simp [sizes, modifyRecord]

theorem sizes_modifyCollection (c : Nat) (f : Collection → Collection) :
    (s.modifyCollection c f).sizes = s.sizes := by
  simp [sizes, modifyCollection]

theorem sizes_modifyTree (k : Nat) (f : Tree → Tree) : (s.modifyTree k f).sizes = s.sizes := by
  simp [sizes, modifyTree]

theorem sizes_modifyBinder (n : Nat) (f : Binder → Binder) : (s.modifyBinder n f).sizes = s.sizes := by
  simp [sizes, modifyBinder]

theorem sizes_modifyView (v : Nat) (f : View → View) : (s.modifyView v f).sizes = s.sizes := by
  simp [sizes, modifyView]

theorem sizes_modifyList (n : Nat) (f : Roster Listener → Roster Listener) : (s.modifyList n f).sizes = s.sizes := by
  simp [sizes, modifyList]

/-- Whether a channel is there depends on how many objects there are. -/
theorem hasChannel_of_sizes (h : t.sizes = s.sizes) (ch : Channel) (hch : s.HasChannel ch) : t.HasChannel ch := by
  have hrecords : t.records.size = s.records.size := congrArg Sizes.records h
  have hcollections : t.collections.size = s.collections.size := congrArg Sizes.collections h
  have htrees : t.trees.size = s.trees.size := congrArg Sizes.trees h
  have hlists : t.lists.size = s.lists.size := congrArg Sizes.lists h
  cases ch <;> simpa only [HasChannel, hrecords, hcollections, htrees, hlists] using hch

/-- A channel is there on both sides, or on neither. -/
theorem Twin.hasChannel (h : s.Twin b s') {ch : Channel} (hch : s.HasChannel ch) : s'.HasChannel ch :=
  hasChannel_of_sizes h.sizes.symm ch hch

/-- A change of the listeners of a record only. -/
theorem outline_modifyRecord (id : RecordId) {f : Record → Record} (hf : ∀ r, (f r).plain = r.plain) :
    (s.modifyRecord id f).outline b = s.outline b := by
  have hrecord : (fun id' => ((s.modifyRecord id f).record id').plain) = fun id' => (s.record id').plain := by
    funext id'
    rw [record_modifyRecord]
    split
    · next hid => rw [hf, hid.1]
    · rfl
  rw [outline, outline, sizes_modifyRecord, hrecord]
  rfl

/-- A change of the listeners of a collection only. -/
theorem outline_modifyCollection (c : Nat) {f : Collection → Collection} (hf : ∀ x, (f x).members = x.members) :
    (s.modifyCollection c f).outline b = s.outline b := by
  have hmembers : (fun c' => ((s.modifyCollection c f).collection c').members) =
      fun c' => (s.collection c').members := by
    funext c'
    rw [collection_modifyCollection]
    split
    · next hc => rw [hf, hc.1]
    · rfl
  rw [outline, outline, sizes_modifyCollection, hmembers]
  rfl

/-- A change of a tree shows in that tree, unless it is the stranger's. -/
theorem outline_modifyTree (k : Nat) (f : Tree → Tree) : (s.modifyTree k f).outline b =
    { s.outline b with tree := fun j => if j = b.tree then default else (s.modifyTree k f).tree j } := by
  rw [outline, outline, sizes_modifyTree]
  rfl

/-- **Listeners do not show in the outline.** -/
theorem outline_modifyListeners (ch : Channel) (f : Roster Listener → Roster Listener) :
    (s.modifyListeners ch f).outline b = s.outline b := by
  cases ch with
  | changes id | requests id => exact outline_modifyRecord id fun _ => rfl
  | removals c | resets c => exact outline_modifyCollection c fun _ => rfl
  | delegations k => rfl
  | list n =>
    simp only [modifyListeners, outline, sizes_modifyList]
    rfl

theorem sizes_modifyListeners (ch : Channel) (f : Roster Listener → Roster Listener) :
    (s.modifyListeners ch f).sizes = s.sizes := by
  cases ch with
  | changes id | requests id => exact sizes_modifyRecord id _
  | removals c | resets c => exact sizes_modifyCollection c _
  | delegations k => rfl
  | list n => exact sizes_modifyList n f

theorem binders_modifyListeners (ch : Channel) (f : Roster Listener → Roster Listener) :
    (s.modifyListeners ch f).binders = s.binders := by
  cases ch <;> rfl

/-- Subscribing changes the roster of a channel, if that is no channel of a tree. -/
theorem subscribe_eq (s : Store) (ch : Channel) (l : Listener) :
    (s.subscribe ch l).1 = s.modifyListeners ch fun r => r.subscribe l := by
  cases ch <;> rfl

/-- A change of any roster, seen as a change of listeners. -/
theorem modifyRoster_eq (s : Store) {ch : Channel} (hch : ch.tree? = none) (f : {α : Type} → Roster α → Roster α) :
    s.modifyRoster ch f = s.modifyListeners ch f := by
  cases ch <;> first | rfl | cases hch

namespace Twin

variable (h : s.Twin b s')
include h

/-- **A change of the listeners on one channel.** -/
theorem modifyListeners {ch : Channel} {f f' : Roster Listener → Roster Listener} {r r' : Roster Hearer}
    (hroster : ∀ ch', (s.modifyListeners ch f).roster ch' = if ch' = ch then r else s.roster ch')
    (hroster' : ∀ ch', (s'.modifyListeners ch f').roster ch' = if ch' = ch then r' else s'.roster ch')
    (hr : (s.roster ch).Sound → r.Sound) (hr' : (s'.roster ch).Sound → r'.Sound)
    (hties : ∀ ids ids', (s.roster ch).Tied b.binder (s'.roster ch) ids ids' → r.Tied b.binder r' ids ids') :
    Paired b s s' (s.modifyListeners ch f) (s'.modifyListeners ch f') := by
  refine h.paired_of_binders ?_ (hasChannel_of_sizes (sizes_modifyListeners ch f)) (fun ch' ids ids' hids => ?_)
    (fun ch' hch => ?_) (fun ch' hch => ?_) (binders_modifyListeners ch f) (binders_modifyListeners ch f')
  · rw [outline_modifyListeners, outline_modifyListeners, h.outline]
  · refine ⟨fun hch => ?_, hids.tree⟩
    rw [hroster, hroster']
    split
    · next heq => exact hties ids ids' (heq ▸ hids.roster hch)
    · exact hids.roster hch
  · rw [hroster]
    split
    · next heq => exact hr (heq ▸ h.kept.rosters ch' hch)
    · exact h.kept.rosters ch' hch
  · rw [hroster']
    split
    · next heq => exact hr' (heq ▸ h.kept'.rosters ch' hch)
    · exact h.kept'.rosters ch' hch

/-- **A change of a roster** on both sides that leaves tied identities tied. -/
theorem modifyRoster (ch : Channel) (hch : ch.tree? = none) {f f' : {α : Type} → Roster α → Roster α}
    (hf : Roster.Uniform f) (hf' : Roster.Uniform f') (hr : (s.roster ch).Sound → (f (s.roster ch)).Sound)
    (hr' : (s'.roster ch).Sound → (f' (s'.roster ch)).Sound)
    (hties : ∀ ids ids', (s.roster ch).Tied b.binder (s'.roster ch) ids ids' →
      (f (s.roster ch)).Tied b.binder (f' (s'.roster ch)) ids ids') :
    Paired b s s' (s.modifyRoster ch f) (s'.modifyRoster ch f') := by
  have hroster := s.roster_modifyRoster hf ch
  have hroster' := s'.roster_modifyRoster hf' ch
  rw [modifyRoster_eq s hch] at hroster ⊢
  rw [modifyRoster_eq s' hch] at hroster' ⊢
  exact h.modifyListeners hroster hroster' hr hr' hties

/-- **A new listener of somebody else**, on a channel that is there. -/
theorem subscribe (ch : Channel) (hch : ch.tree? = none) (hthere : s.HasChannel ch) (l : Listener)
    (hl : (Hearer.listener l).isOf b.binder = false) :
    Paired b s s' (s.subscribe ch l).1 (s'.subscribe ch l).1 ∧
      (s.subscribe ch l).1.SameGuard b (s'.subscribe ch l).1 (s.subscribe ch l).2 (s'.subscribe ch l).2 := by
  have hroster : ∀ ch', (s.subscribe ch l).1.roster ch' =
      if ch' = ch then (s.roster ch).subscribe (.listener l) else s.roster ch' := by
    intro ch'
    rw [s.roster_subscribe l hch]
    simp only [hthere, and_true]
  have hroster' : ∀ ch', (s'.subscribe ch l).1.roster ch' =
      if ch' = ch then (s'.roster ch).subscribe (.listener l) else s'.roster ch' := by
    intro ch'
    rw [s'.roster_subscribe l hch]
    simp only [h.hasChannel hthere, and_true]
  have hsound := h.kept.rosters ch hch
  have hsound' := h.kept'.rosters ch hch
  constructor
  · simp only [subscribe_eq] at hroster hroster' ⊢
    exact h.modifyListeners hroster hroster' (Roster.sound_subscribe · _) (Roster.sound_subscribe · _)
      fun ids ids' hids => hids.subscribe hl
  · rw [s.guard_subscribe l hch, s'.guard_subscribe l hch]
    refine ⟨rfl, fun _ => ?_, fun k hk => by simp [hch] at hk⟩
    rw [hroster, hroster', if_pos rfl, if_pos rfl]
    exact (h.roster hch).subscribed hl hsound hsound'

/-! ## Trees -/

/-- **A change of a tree**, the same on both sides unless it is the stranger's. -/
theorem modifyTree (k : Nat) {f f' : Tree → Tree} (hf : k ≠ b.tree → f = f') :
    Paired b s s' (s.modifyTree k f) (s'.modifyTree k f') := by
  have hroster (s : Store) (f : Tree → Tree) (ch : Channel) (hch : ch.tree? = none) :
      (s.modifyTree k f).roster ch = s.roster ch := by
    rw [roster_modifyTree, if_neg]
    rintro ⟨rfl, -⟩
    cases hch
  have htree : (fun j => if j = b.tree then default else (s.modifyTree k f).tree j) =
      fun j => if j = b.tree then default else (s'.modifyTree k f').tree j := by
    funext j
    by_cases hj : j = b.tree
    · rw [if_pos hj, if_pos hj]
    · have hsize : s.trees.size = s'.trees.size := congrArg Sizes.trees h.sizes
      rw [if_neg hj, if_neg hj, tree_modifyTree, tree_modifyTree, hsize]
      split
      · next hk => rw [hf (hk.1 ▸ hj), h.tree (hk.1 ▸ hj)]
      · exact h.tree hj
  refine h.paired_of_rosters ?_ (hasChannel_of_sizes (sizes_modifyTree k f)) (hroster s f) (hroster s' f') rfl rfl
  rw [outline_modifyTree, outline_modifyTree, h.outline, htree]

/-- A change of the elements of a tree, which may be another one for the stranger's. -/
theorem modifyArena (k : Nat) {f f' : Arena → Arena} (hf : k ≠ b.tree → f = f') :
    Paired b s s' (s.modifyArena k f) (s'.modifyArena k f') :=
  h.modifyTree k fun hk => by rw [hf hk]

/-! ## Guards and call lists -/

/-- **Dropping the same guard.** -/
theorem drop {g g' : Guard} (hg : s.SameGuard b s' g g') : Paired b s s' (s.drop g) (s'.drop g') := by
  obtain ⟨ch, i⟩ := g
  obtain ⟨ch', i'⟩ := g'
  obtain rfl : ch = ch' := hg.channel
  cases hch : ch.tree? with
  | none =>
    exact h.modifyRoster ch hch (Roster.uniform_release i) (Roster.uniform_release i') (Roster.sound_release · i)
      (Roster.sound_release · i') fun ids ids' hids => (hg.tied.roster hch).release hids
  | some k =>
    cases ch with
    | delegations j =>
      refine h.modifyTree j fun hj => ?_
      have hsame := hg.tied.tree j rfl hj
      rw [List.cons.inj hsame |>.1]
    | _ => cases hch

/-- Guards that stand for the same listeners are dropped in pairs. -/
theorem dropAll {gs gs' : List Guard} (hgs : List.Forall₂ (s.SameGuard b s') gs gs') :
    Paired b s s' (s.dropAll gs) (s'.dropAll gs') := by
  induction gs generalizing s s' gs' with
  | nil =>
    cases hgs
    exact .refl h
  | cons g rest ih =>
    cases hgs with
    | cons hg hrest =>
      have hfirst := h.drop hg
      exact hfirst.trans (ih hfirst.twin (hfirst.guards hrest))

/-- **Taking back the pins of the same listeners.** -/
theorem finish {ch : Channel} {ids ids' : List Nat} (hids : s.Tied b s' ch ids ids') :
    Paired b s s' (s.finish ch ids) (s'.finish ch ids') := by
  cases hch : ch.tree? with
  | none =>
    exact h.modifyRoster ch hch (Roster.uniform_unpin ids) (Roster.uniform_unpin ids') (Roster.sound_unpin · ids)
      (Roster.sound_unpin · ids') fun js js' hjs => (hids.roster hch).unpin hjs
  | some k =>
    cases ch with
    | delegations j => exact h.modifyTree j fun hj => by rw [hids.tree j rfl hj]
    | _ => cases hch

end Twin

/-- Listeners that are not reactions of a binder. -/
def others (n : Nat) (ls : List Listener) : List Listener := ls.filter fun l => !(Hearer.listener l).isOf n

/-- **Call lists drawn up on both sides** pin and call the same listeners, apart from the stranger's. -/
theorem Twin.draw (h : s.Twin b s') {ch : Channel} (hch : ch.tree? = none) :
    Paired b s s' (s.draw ch).1 (s'.draw ch).1 ∧
      (s.draw ch).1.Tied b (s'.draw ch).1 ch ((s.draw ch).2.map (·.id)) ((s'.draw ch).2.map (·.id)) ∧
      others b.binder ((s.draw ch).2.map (·.listener)) = others b.binder ((s'.draw ch).2.map (·.listener)) := by
  have hlive (s : Store) : (s.roster ch).live.map (·.id) = (s.listeners ch).live.map (·.id) := by
    rw [s.roster_eq_listeners hch, Roster.live_map]
  have hr := h.kept.rosters ch hch
  have hr' := h.kept'.rosters ch hch
  refine ⟨h.modifyRoster ch hch (Roster.uniform_draw _) (Roster.uniform_draw _)
    (fun hr => Roster.sound_pin (Roster.sound_prune hr) _) (fun hr => Roster.sound_pin (Roster.sound_prune hr) _)
    fun ids ids' hids => ?_, ⟨fun _ => ?_, fun k hk => by simp [hch] at hk⟩, ?_⟩
  · rw [← hlive, ← hlive]
    exact hids.draw hr hr'
  · simp only [Store.draw]
    rw [s.roster_modifyRoster (Roster.uniform_draw _), s'.roster_modifyRoster (Roster.uniform_draw _), if_pos rfl,
      if_pos rfl, ← hlive, ← hlive]
    exact (h.roster hch).drawn hr hr'
  · have hcalled (s : Store) : (others b.binder ((s.listeners ch).live.map (·.listener))).map Hearer.listener =
        (((s.roster ch).shades b.binder []).filter Roster.Shade.isLive).map (·.hearer) := by
      rw [← Roster.live_of_shades, s.roster_eq_listeners hch]
      simp only [others, Roster.live, Roster.map, List.filter_map, List.map_map, List.filter_filter, Function.comp_def]
      rfl
    refine List.map_injective_iff.mpr (fun _ _ heq => Hearer.listener.inj heq) ((hcalled s).trans ?_)
    rw [(h.roster hch).shades]
    exact (hcalled s').symm

/-! ## Objects -/

/-- A change of a record shows in that record. -/
theorem outline_modifyRecord_eq (id : RecordId) (f : Record → Record) : (s.modifyRecord id f).outline b =
    { s.outline b with record := fun id' => ((s.modifyRecord id f).record id').plain } := by
  rw [outline, outline, sizes_modifyRecord]
  rfl

/-- A change of a collection shows in its members. -/
theorem outline_modifyCollection_eq (c : Nat) (f : Collection → Collection) : (s.modifyCollection c f).outline b =
    { s.outline b with members := fun c' => ((s.modifyCollection c f).collection c').members } := by
  rw [outline, outline, sizes_modifyCollection]
  rfl

/-- A change of a view shows in that view, but for what a view of the stranger owns. -/
theorem outline_modifyView (v : Nat) (f : View → View) : (s.modifyView v f).outline b =
    { s.outline b with view := fun v' => ((s.modifyView v f).view v').apart b.binder } := by
  rw [outline, outline, sizes_modifyView]
  rfl

/-- Of a binder only its settings show here; the rest is compared with its guards. -/
theorem outline_modifyBinder (n : Nat) {f : Binder → Binder}
    (hf : ∀ x, (f x).scope = x.scope ∧ (f x).config = x.config) : (s.modifyBinder n f).outline b = s.outline b := by
  have hsettings : (fun m => (((s.modifyBinder n f).binder m).scope, ((s.modifyBinder n f).binder m).config)) =
      fun m => ((s.binder m).scope, (s.binder m).config) := by
    funext m
    rw [binder_modifyBinder]
    split
    · next hm => rw [(hf _).1, (hf _).2, hm.1]
    · rfl
  rw [outline, outline, sizes_modifyBinder, hsettings]
  rfl

namespace Twin

variable (h : s.Twin b s')
include h

/-- **A change of a record** that treats records alike which differ in their listeners. -/
theorem modifyRecord (id : RecordId) {f : Record → Record}
    (hplain : ∀ r r' : Record, r.plain = r'.plain → (f r).plain = (f r').plain)
    (hties : ∀ ch ids ids', s.Tied b s' ch ids ids' →
      (s.modifyRecord id f).Tied b (s'.modifyRecord id f) ch ids ids')
    (hrosters : ∀ s : Store, ∀ ch, (s.roster ch).Sound → ((s.modifyRecord id f).roster ch).Sound) :
    Paired b s s' (s.modifyRecord id f) (s'.modifyRecord id f) := by
  have hrecord : (fun id' => ((s.modifyRecord id f).record id').plain) =
      fun id' => ((s'.modifyRecord id f).record id').plain := by
    funext id'
    have hsize : s.records.size = s'.records.size := congrArg Sizes.records h.sizes
    rw [record_modifyRecord, record_modifyRecord, hsize]
    split
    · exact hplain _ _ (h.record id)
    · exact h.record id'
  refine h.paired_of_binders ?_ (hasChannel_of_sizes (sizes_modifyRecord id f)) hties
    (fun ch hch => hrosters s ch (h.kept.rosters ch hch)) (fun ch hch => hrosters s' ch (h.kept'.rosters ch hch)) rfl rfl
  rw [outline_modifyRecord_eq, outline_modifyRecord_eq, h.outline, hrecord]

/-- A change of a record beside its listeners. -/
theorem modifyRecord_data (id : RecordId) {f : Record → Record}
    (hplain : ∀ r r' : Record, r.plain = r'.plain → (f r).plain = (f r').plain)
    (hf : ∀ r, (f r).changes = r.changes ∧ (f r).requests = r.requests) :
    Paired b s s' (s.modifyRecord id f) (s'.modifyRecord id f) := by
  have hroster (s : Store) (ch : Channel) : (s.modifyRecord id f).roster ch = s.roster ch := by
    have hrecord : ∀ id', ((s.modifyRecord id f).record id').changes = (s.record id').changes ∧
        ((s.modifyRecord id f).record id').requests = (s.record id').requests := by
      intro id'
      rw [record_modifyRecord]
      split
      · next hid => exact hid.1 ▸ hf _
      · exact ⟨rfl, rfl⟩
    cases ch with
    | changes id' => simp only [Store.roster, (hrecord id').1]
    | requests id' => simp only [Store.roster, (hrecord id').2]
    | _ => rfl
  refine h.modifyRecord id hplain (fun ch ids ids' hids => ?_) fun s ch hsound => ?_
  · exact hids.congr (fun _ => hroster s ch) fun _ => hroster s' ch
  · rw [hroster]
    exact hsound

/-- **A record that is destroyed** loses all listeners, whosoever they are. -/
theorem destroy (id : RecordId) : Paired b s s' (s.destroy id) (s'.destroy id) := by
  have hlogged : Paired b s s' (s.log (.destroyed id)) (s'.log (.destroyed id)) := h.hushed (.log s _) (.log s' _)
  refine hlogged.trans (hlogged.twin.modifyRecord id (fun r r' hr => ?_) (fun ch ids ids' hids => ?_) fun s ch hsound => ?_)
  · have hplain (r : Record) : r.destroy.plain = { r.plain with alive := false } := rfl
    rw [hplain, hplain, hr]
  · refine ⟨fun hch => ?_, hids.tree⟩
    rw [roster_destroy, roster_destroy]
    split
    · exact (hids.roster hch).clear
    · exact hids.roster hch
  · rw [roster_destroy]
    split
    · exact Roster.sound_clear
    · exact hsound

/-- A change of a collection's members. -/
theorem modifyMembers (c : Nat) (f : List RecordId → List RecordId) :
    Paired b s s' (s.modifyCollection c fun x => { x with members := f x.members })
      (s'.modifyCollection c fun x => { x with members := f x.members }) := by
  have hroster (s : Store) := (s.extends_modifyCollection c (f := fun x => { x with members := f x.members })
    fun _ => ⟨rfl, rfl⟩).roster
  have hmembers : (fun c' => ((s.modifyCollection c fun x => { x with members := f x.members }).collection c').members) =
      fun c' => ((s'.modifyCollection c fun x => { x with members := f x.members }).collection c').members := by
    funext c'
    have hsize : s.collections.size = s'.collections.size := congrArg Sizes.collections h.sizes
    rw [collection_modifyCollection, collection_modifyCollection, hsize]
    split
    · simp only [h.members c]
    · exact h.members c'
  refine h.paired_of_rosters ?_ (hasChannel_of_sizes (sizes_modifyCollection c _)) (fun ch _ => hroster s ch)
    (fun ch _ => hroster s' ch) rfl rfl
  rw [outline_modifyCollection_eq, outline_modifyCollection_eq, h.outline, hmembers]

/-- **A change of a view**, the same on both sides but for what it holds of the stranger. -/
theorem modifyView (v : Nat) {f f' : View → View}
    (hf : (f (s.view v)).apart b.binder = (f' (s'.view v)).apart b.binder) :
    Paired b s s' (s.modifyView v f) (s'.modifyView v f') := by
  have hview : (fun v' => ((s.modifyView v f).view v').apart b.binder) =
      fun v' => ((s'.modifyView v f').view v').apart b.binder := by
    funext v'
    have hsize : s.views.size = s'.views.size := congrArg Sizes.views h.sizes
    rw [view_modifyView, view_modifyView, hsize]
    split
    · exact hf
    · exact h.view_apart v'
  refine h.paired_of_rosters ?_ (hasChannel_of_sizes (sizes_modifyView v f)) (fun _ _ => rfl) (fun _ _ => rfl) rfl rfl
  rw [outline_modifyView, outline_modifyView, h.outline, hview]

/-- **A change of a binder that is not the stranger.** -/
theorem modifyBinder {n : Nat} (hn : n ≠ b.binder) {f f' : Binder → Binder}
    (hf : ∀ x, (f x).scope = x.scope ∧ (f x).config = x.config)
    (hf' : ∀ x, (f' x).scope = x.scope ∧ (f' x).config = x.config)
    (halike : (f (s.binder n)).Alike (s.SameGuard b s') (f' (s'.binder n))) :
    Paired b s s' (s.modifyBinder n f) (s'.modifyBinder n f') := by
  have hown (s : Store) (f : Binder → Binder) : (s.modifyBinder n f).binder b.binder = s.binder b.binder := by
    rw [binder_modifyBinder, if_neg]
    rintro ⟨heq, -⟩
    exact hn heq.symm
  have hsame : ∀ g g', s.SameGuard b s' g g' → (s.modifyBinder n f).SameGuard b (s'.modifyBinder n f') g g' :=
    fun g g' hg => ⟨hg.channel, hg.tied.roster, hg.tied.tree⟩
  have hbinder (m : Nat) (hm : m ≠ b.binder) : ((s.modifyBinder n f).binder m).Alike
      ((s.modifyBinder n f).SameGuard b (s'.modifyBinder n f')) ((s'.modifyBinder n f').binder m) := by
    have hsize : s.binders.size = s'.binders.size := congrArg Sizes.binders h.sizes
    rw [binder_modifyBinder, binder_modifyBinder, hsize]
    split
    · exact halike.imp hsame
    · exact (h.binder m hm).imp hsame
  refine h.paired ?_ (hasChannel_of_sizes (sizes_modifyBinder n f)) (fun ch ids ids' hids => ⟨hids.roster, hids.tree⟩)
    h.kept.rosters h.kept'.rosters hbinder (hown s f) (hown s' f') (Nat.le_of_eq ?_)
  · rw [outline_modifyBinder n hf, outline_modifyBinder n hf', h.outline]
  · exact (congrArg Sizes.binders (sizes_modifyBinder n f)).symm

/-- A change of the registry of a binder other than the stranger. -/
theorem modifyRegistry {n : Nat} (hn : n ≠ b.binder) {f f' : Registry → Registry}
    (hf : (f (s.binder n).registry).Alike (s.SameGuard b s') (f' (s'.binder n).registry)) :
    Paired b s s' (s.modifyRegistry n f) (s'.modifyRegistry n f') :=
  h.modifyBinder hn (fun _ => ⟨rfl, rfl⟩) (fun _ => ⟨rfl, rfl⟩)
    ⟨hf, (h.binder n hn).collections, (h.binder n hn).retired⟩

end Twin

/-! ## New objects -/

/-- A new record shows in the records, and in how many there are. So it is with every new object. -/
theorem outline_addRecord (r : Record) : (s.addRecord r).outline b =
    { s.outline b with
      record := fun id => ((s.addRecord r).record id).plain
      sizes := { s.sizes with records := s.records.size + 1 } } := by
  have hsizes : (s.addRecord r).sizes = { s.sizes with records := s.records.size + 1 } := by simp [sizes, addRecord]
  rw [outline, outline, hsizes]
  rfl

theorem outline_addCollection (c : Collection) : (s.addCollection c).outline b =
    { s.outline b with
      members := fun n => ((s.addCollection c).collection n).members
      sizes := { s.sizes with collections := s.collections.size + 1 } } := by
  have hsizes : (s.addCollection c).sizes = { s.sizes with collections := s.collections.size + 1 } := by
    simp [sizes, addCollection]
  rw [outline, outline, hsizes]
  rfl

theorem outline_addTree (t : Tree) : (s.addTree t).outline b =
    { s.outline b with
      tree := fun k => if k = b.tree then default else (s.addTree t).tree k
      sizes := { s.sizes with trees := s.trees.size + 1 } } := by
  have hsizes : (s.addTree t).sizes = { s.sizes with trees := s.trees.size + 1 } := by simp [sizes, addTree]
  rw [outline, outline, hsizes]
  rfl

theorem outline_addBinder (x : Binder) : (s.addBinder x).outline b =
    { s.outline b with
      settings := fun n => (((s.addBinder x).binder n).scope, ((s.addBinder x).binder n).config)
      sizes := { s.sizes with binders := s.binders.size + 1 } } := by
  have hsizes : (s.addBinder x).sizes = { s.sizes with binders := s.binders.size + 1 } := by simp [sizes, addBinder]
  rw [outline, outline, hsizes]
  rfl

theorem outline_addView (x : View) : (s.addView x).outline b =
    { s.outline b with
      view := fun v => ((s.addView x).view v).apart b.binder
      sizes := { s.sizes with views := s.views.size + 1 } } := by
  have hsizes : (s.addView x).sizes = { s.sizes with views := s.views.size + 1 } := by simp [sizes, addView]
  rw [outline, outline, hsizes]
  rfl

theorem outline_addList : s.addList.outline b =
    { s.outline b with sizes := { s.sizes with lists := s.lists.size + 1 } } := by
  have hsizes : s.addList.sizes = { s.sizes with lists := s.lists.size + 1 } := by simp [sizes, addList]
  rw [outline, outline, hsizes]
  rfl

/-- A store with more objects has the channels of those that were there. -/
theorem hasChannel_of_le (hrecords : s.records.size ≤ t.records.size)
    (hcollections : s.collections.size ≤ t.collections.size) (htrees : s.trees.size ≤ t.trees.size)
    (hlists : s.lists.size ≤ t.lists.size) (ch : Channel) (hch : s.HasChannel ch) : t.HasChannel ch := by
  cases ch with
  | changes id | requests id => exact Nat.lt_of_lt_of_le hch hrecords
  | removals c | resets c => exact Nat.lt_of_lt_of_le hch hcollections
  | delegations k => exact Nat.lt_of_lt_of_le hch htrees
  | list n => exact Nat.lt_of_lt_of_le hch hlists

namespace Twin

variable (h : s.Twin b s')
include h

/-- New objects to which nobody listens, the same on both sides. -/
theorem extended (ht : s.Extends t) (ht' : s'.Extends t') (houtline : t.outline b = t'.outline b) :
    Paired b s s' t t' :=
  h.paired_of_rosters houtline
    (hasChannel_of_le ht.toKeeps.records ht.toKeeps.collections ht.toKeeps.trees ht.toKeeps.lists)
    (fun ch _ => ht.toKeeps.roster ch) (fun ch _ => ht'.toKeeps.roster ch) ht.toKeeps.binders ht'.toKeeps.binders

/-- **A new record** is the same on both sides, and gets the same identity. -/
theorem addRecord {fields : Fields} (hfields : fields.Proper) :
    Paired b s s' (s.addRecord (.ofFields fields)) (s'.addRecord (.ofFields fields)) := by
  refine h.extended (s.extends_addRecord hfields) (s'.extends_addRecord hfields) ?_
  have hsize : s.records.size = s'.records.size := congrArg Sizes.records h.sizes
  have hrecord : (fun id => ((s.addRecord (.ofFields fields)).record id).plain) =
      fun id => ((s'.addRecord (.ofFields fields)).record id).plain := by
    funext id
    have hplain : (s.record id).plain = (s'.record id).plain := h.record id
    simp only [Store.record, Store.addRecord, getD_push, hsize] at hplain ⊢
    split
    · rfl
    · exact hplain
  rw [outline_addRecord, outline_addRecord, h.outline, h.sizes, hsize, hrecord]

theorem addCollection (members : List RecordId) :
    Paired b s s' (s.addCollection (.ofMembers members)) (s'.addCollection (.ofMembers members)) := by
  refine h.extended (s.extends_addCollection members) (s'.extends_addCollection members) ?_
  have hsize : s.collections.size = s'.collections.size := congrArg Sizes.collections h.sizes
  have hmembers : (fun c => ((s.addCollection (.ofMembers members)).collection c).members) =
      fun c => ((s'.addCollection (.ofMembers members)).collection c).members := by
    funext c
    have hsame := h.members c
    simp only [Store.collection, Store.addCollection, getD_push, hsize] at hsame ⊢
    split
    · rfl
    · exact hsame
  rw [outline_addCollection, outline_addCollection, h.outline, h.sizes, hsize, hmembers]

/-- A new tree is not the stranger's, for the stranger has its tree already. -/
theorem addTree {arena : Arena} (harena : arena.Grown) :
    Paired b s s' (s.addTree (.ofArena arena)) (s'.addTree (.ofArena arena)) := by
  refine h.extended (s.extends_addTree harena) (s'.extends_addTree harena) ?_
  have hsize : s.trees.size = s'.trees.size := congrArg Sizes.trees h.sizes
  have htree : (fun k => if k = b.tree then default else (s.addTree (.ofArena arena)).tree k) =
      fun k => if k = b.tree then default else (s'.addTree (.ofArena arena)).tree k := by
    funext k
    by_cases hk : k = b.tree
    · rw [if_pos hk, if_pos hk]
    · have hsame := h.tree hk
      simp only [Store.tree, Store.addTree, getD_push, hsize, if_neg hk] at hsame ⊢
      split
      · rfl
      · exact hsame
  rw [outline_addTree, outline_addTree, h.outline, h.sizes, hsize, htree]

theorem addList : Paired b s s' s.addList s'.addList := by
  refine h.extended s.extends_addList s'.extends_addList ?_
  have hsize : s.lists.size = s'.lists.size := congrArg Sizes.lists h.sizes
  rw [outline_addList, outline_addList, h.outline, h.sizes, hsize]

/-- A new view owns nothing yet. -/
theorem addView {x : View} (hsource : ∀ c, x.source = .collection c → c < s.collections.size) :
    Paired b s s' (s.addView x) (s'.addView x) := by
  have hcollections : s.collections.size = s'.collections.size := congrArg Sizes.collections h.sizes
  refine h.extended (s.extends_addView hsource) (s'.extends_addView fun c hc => hcollections ▸ hsource c hc) ?_
  have hsize : s.views.size = s'.views.size := congrArg Sizes.views h.sizes
  have hview : (fun v => ((s.addView x).view v).apart b.binder) =
      fun v => ((s'.addView x).view v).apart b.binder := by
    funext v
    have hsame := h.view_apart v
    simp only [Store.view, Store.addView, getD_push, hsize] at hsame ⊢
    split
    · rfl
    · exact hsame
  rw [outline_addView, outline_addView, h.outline, h.sizes, hsize, hview]

/-- **A new binder** is not the stranger, which is there. -/
theorem addBinder (scope : Scope) (config : Config) :
    Paired b s s' (s.addBinder (.ofScope scope config)) (s'.addBinder (.ofScope scope config)) := by
  have hsize : s.binders.size = s'.binders.size := congrArg Sizes.binders h.sizes
  have hown (s : Store) (hkept : s.Kept b) :
      (s.addBinder (.ofScope scope config)).binder b.binder = s.binder b.binder := by
    rw [binder_addBinder, if_neg (Nat.ne_of_lt hkept.there)]
  have hsame : ∀ g g', s.SameGuard b s' g g' → (s.addBinder (.ofScope scope config)).SameGuard b
      (s'.addBinder (.ofScope scope config)) g g' := fun g g' hg => ⟨hg.channel, hg.tied.roster, hg.tied.tree⟩
  have hsettings : (fun n => (((s.addBinder (.ofScope scope config)).binder n).scope,
      ((s.addBinder (.ofScope scope config)).binder n).config)) =
      fun n => (((s'.addBinder (.ofScope scope config)).binder n).scope,
        ((s'.addBinder (.ofScope scope config)).binder n).config) := by
    funext n
    rw [binder_addBinder, binder_addBinder, hsize]
    split
    · rfl
    · rw [h.scope n, h.config n]
  refine h.paired ?_ (fun ch hch => ?_) (fun ch ids ids' hids => ⟨hids.roster, hids.tree⟩) h.kept.rosters
    h.kept'.rosters (fun n hn => ?_) (hown s h.kept) (hown s' h.kept') ?_
  · rw [outline_addBinder, outline_addBinder, h.outline, h.sizes, hsize, hsettings]
  · exact hasChannel_of_le (Nat.le_refl _) (Nat.le_refl _) (Nat.le_refl _) (Nat.le_refl _) ch hch
  · rw [binder_addBinder, binder_addBinder, hsize]
    split
    · exact ⟨.nil, .nil, rfl⟩
    · exact (h.binder n hn).imp hsame
  · simp [Store.addBinder]

end Twin

end Databind.Store
