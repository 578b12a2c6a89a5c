import Databind.Proofs.Independence.OtherOperations

/-!
# `Proofs.Independence.SharedOperations` — what binders, views and records do to twins

Whoever acts, the stranger or another binder, a view or a record, the same done to both of two twins leaves them twins.
Where it leaves tasks, those are the same but for the stranger's listeners among those who wait.

## Main definitions

* `Task.Twin` — what is left to do is the same on both sides.
* `Store.Concerted` — something done to both stores, with what it leaves to do.
-/

namespace Databind

/-- Two views that are the same but for what they hold of one binder. -/
theorem View.same_of_apart {n : Nat} {x x' : View} (h : x.apart n = x'.apart n) :
    x.binder = x'.binder ∧ x.source = x'.source ∧ x.bindings = x'.bindings := by
  have hapart (x : View) : x.binder = (x.apart n).binder ∧ x.source = (x.apart n).source ∧
      x.bindings = (x.apart n).bindings := by
    unfold View.apart
    split <;> exact ⟨rfl, rfl, rfl⟩
  obtain ⟨hbinder, hsource, hbindings⟩ := hapart x
  rw [hbinder, hsource, hbindings, h]
  exact ⟨(hapart x').1.symm, (hapart x').2.1.symm, (hapart x').2.2.symm⟩

namespace Store

variable {b : Stranger} {s s' t t' : Store} {n : Nat}

namespace Twin

variable (h : s.Twin b s')
include h

/-! ## Checking -/

theorem prepare (n : Nat) (id : RecordId) (property : Property) (key : BindingKey) (twoWay : TwoWay) (autoRender : Bool) :
    s.prepare n id property key twoWay autoRender = s'.prepare n id property key twoWay autoRender := by
  unfold Store.prepare
  rw [h.alive, h.config]

theorem prepareAt (n : Nat) (autoRender : Bool) (id : RecordId) (d : Descriptor) (property : Property) :
    s.prepareAt n autoRender id d property = s'.prepareAt n autoRender id d property := h.prepare ..

theorem prepareRecord (n : Nat) (autoRender : Bool) (id : RecordId) (entries : List (String × MapValue)) :
    s.prepareRecord n autoRender id entries = s'.prepareRecord n autoRender id entries := by
  induction entries with
  | nil => rfl
  | cons entry rest ih => simp only [Store.prepareRecord, h.config, h.prepareAt, ih]

theorem preparePlan (n : Nat) (autoRender : Bool) (plan : List Planned) :
    s.preparePlan n autoRender plan = s'.preparePlan n autoRender plan := by
  induction plan with
  | nil => rfl
  | cons planned rest ih => simp only [Store.preparePlan, h.prepareAt, ih]

theorem findMember (c : Nat) (key : String) : s.findMember c key = s'.findMember c key := by
  have hknown : s.isKnownAs key = s'.isKnownAs key := funext fun id => by simp only [isKnownAs, h.fields]
  rw [Store.findMember, Store.findMember, h.members, hknown]

theorem resolveMember (c : Nat) (key : String) : s.resolveMember c key = s'.resolveMember c key := by
  have hat : s.memberAt c = s'.memberAt c := funext fun i => by simp only [memberAt, h.members]
  simp only [Store.resolveMember, h.findMember, hat]

/-- **A map expands to the same plan.** -/
theorem expand (c : Nat) (map : BindingMap) (defaultEvent : String) :
    s.expand c map defaultEvent = s'.expand c map defaultEvent := by
  have hentry (parent : String) (value : MapValue) :
      s.expandEntry c defaultEvent parent value = s'.expandEntry c defaultEvent parent value := by
    unfold expandEntry
    simp only [h.resolveMember, h.members]
  have hentries (entries : List (String × MapValue)) :
      s.expandEntries c defaultEvent entries = s'.expandEntries c defaultEvent entries := by
    induction entries with
    | nil => rfl
    | cons entry rest ih => simp only [expandEntries, hentry, ih]
  exact hentries map.entries

/-! ## Binders -/

theorem bind (n : Nat) (id : RecordId) (property : Property) (key : BindingKey) (twoWay : TwoWay) (autoRender : Bool) :
    Paired b s s' (s.bind n id property key twoWay autoRender).1 (s'.bind n id property key twoWay autoRender).1 := by
  by_cases hn : n = b.binder
  · subst hn
    exact h.aside (h.kept.bind ..) (h.kept'.bind ..)
  · unfold Store.bind
    rw [← h.prepare]
    split
    · next p hp => exact h.commit hn (s.lt_of_alive (prepare_ready hp).alive)
    · exact .refl h

theorem attach (n : Nat) {source : Source} (hsource : ∀ c, source = .collection c → c < s.collections.size)
    (map : BindingMap) (autoRender : Option Bool) :
    Paired b s s' (s.attach n source map autoRender).1 (s'.attach n source map autoRender).1 := by
  by_cases hn : n = b.binder
  · subst hn
    have hsize : s.collections.size = s'.collections.size := congrArg Sizes.collections h.sizes
    exact h.aside (h.kept.attach hsource ..) (h.kept'.attach (fun c hc => hsize ▸ hsource c hc) ..)
  -- all of it replaces everything
  have hreplace {s s' : Store} (h : s.Twin b s') {ps : List Prepared}
      (hps : ∀ p ∈ ps, s.HasChannel (.changes p.record)) :
      Paired b s s' ((s.detach n).commitAll n ps) ((s'.detach n).commitAll n ps) := by
    have hdetach := h.detach hn
    exact hdetach.trans (hdetach.twin.commitAll hn fun p hp => hdetach.there _ (hps p hp))
  unfold Store.attach
  simp only
  rw [h.config]
  split
  · exact .refl h
  · cases source with
    | none => exact .refl h
    | record id =>
      simp only [attachRecord]
      rw [← h.prepareRecord]
      split
      · exact .refl h
      · next ps hps => exact hreplace h fun p hp => s.lt_of_alive (prepareRecord_ready hps p hp).alive
    | collection c =>
      simp only [attachCollection]
      rw [h.config, ← h.expand]
      split
      · exact .refl h
      · next plan hplan =>
        have hlogged := h.hushed (.log s (.expanded (s.collection c).members.length plan.length))
          (.log s' (.expanded (s'.collection c).members.length plan.length))
        rw [← hlogged.twin.preparePlan]
        split
        · exact hlogged
        · next ps hps =>
          have hall := hlogged.trans (hreplace hlogged.twin fun p hp => lt_of_alive _ (preparePlan_ready hps p hp).alive)
          have hthere : s.HasChannel (.removals c) := hsource c rfl
          exact hall.trans (hall.twin.listenCollection hn (hall.there _ hthere))

/-- A map is refused on both sides or on neither. -/
theorem attach_error (n : Nat) (source : Source) (map : BindingMap) (autoRender : Option Bool) :
    (s.attach n source map autoRender).2 = (s'.attach n source map autoRender).2 := by
  unfold Store.attach
  simp only
  rw [h.config]
  split
  · rfl
  · cases source with
    | none => rfl
    | record id =>
      simp only [attachRecord]
      rw [← h.prepareRecord]
      split <;> rfl
    | collection c =>
      simp only [attachCollection, preparePlan_log]
      rw [h.config, ← h.expand]
      split
      · rfl
      · rw [← h.preparePlan]
        split <;> rfl

theorem unbind_any (n : Nat) (id : RecordId) (key : BindingKey) :
    Paired b s s' (s.unbind n id key) (s'.unbind n id key) := by
  by_cases hn : n = b.binder
  · subst hn
    exact h.aside (h.kept.unbind id key) (h.kept'.unbind id key)
  · exact h.unbind hn id key

theorem unbindAll_any (n : Nat) (id : Option RecordId) : Paired b s s' (s.unbindAll n id) (s'.unbindAll n id) := by
  by_cases hn : n = b.binder
  · subst hn
    exact h.aside (h.kept.unbindAll id) (h.kept'.unbindAll id)
  · exact h.unbindAll hn id

theorem detach_any (n : Nat) : Paired b s s' (s.detach n) (s'.detach n) := by
  by_cases hn : n = b.binder
  · subst hn
    exact h.aside h.kept.detach h.kept'.detach
  · exact h.detach hn

theorem renderBindings (n : Nat) (id : Option RecordId) :
    Paired b s s' (s.renderBindings n id) (s'.renderBindings n id) := by
  by_cases hn : n = b.binder
  · subst hn
    exact h.aside (h.kept.renderBindings id) (h.kept'.renderBindings id)
  · unfold Store.renderBindings
    refine h.renderAll_alike n ?_
    cases id with
    | none => exact (h.registry hn).bindings
    | some id => exact (h.registry hn).bindingsOf id

/-! ## Views -/

theorem view_binder (v : Nat) : (s.view v).binder = (s'.view v).binder := (View.same_of_apart (h.view_apart v)).1

theorem view_source (v : Nat) : (s.view v).source = (s'.view v).source := (View.same_of_apart (h.view_apart v)).2.1

theorem view_bindings (v : Nat) : (s.view v).bindings = (s'.view v).bindings := (View.same_of_apart (h.view_apart v)).2.2

/-- A view of another binder is the same. -/
theorem view {v : Nat} (hv : (s.view v).binder ≠ b.binder) : s.view v = s'.view v := by
  have hview := h.view_apart v
  rwa [View.apart, View.apart, if_neg hv, if_neg (h.view_binder v ▸ hv)] at hview

/-- The sources of views are there on both sides or on neither. -/
theorem sourced (hs : s.Sourced) : s'.Sourced := by
  intro v c hc
  have hsize : s.collections.size = s'.collections.size := congrArg Sizes.collections h.sizes
  exact hsize ▸ hs v c (h.view_source v ▸ hc)

/-- What a view holds is replaced. -/
theorem holdings (v : Nat) (owned : List (RecordId × BindingKey)) (collections : Bool) :
    Paired b s s' (s.modifyView v fun x => { x with owned, ownsCollection := collections })
      (s'.modifyView v fun x => { x with owned, ownsCollection := collections }) := by
  refine h.modifyView v ?_
  rw [h.view_binder, h.view_source, h.view_bindings]

theorem mount (v : Nat) (hsourced : s.Sourced) : Paired b s s' (s.mount v).1 (s'.mount v).1 := by
  by_cases hv : (s.view v).binder = b.binder
  · exact h.aside (h.kept.mount hv hsourced) (h.kept'.mount (h.view_binder v ▸ hv) (h.sourced hsourced))
  · have hattach : Paired b s s' (s.attach (s.view v).binder (s.view v).source (s.view v).bindings (some false)).1
        (s'.attach (s.view v).binder (s.view v).source (s.view v).bindings (some false)).1 :=
      h.attach _ (fun c hc => hsourced v c hc) _ _
    have herror := h.attach_error (s.view v).binder (s.view v).source (s.view v).bindings (some false)
    unfold Store.mount
    simp only
    rw [← h.view hv]
    generalize s.attach (s.view v).binder (s.view v).source (s.view v).bindings (some false) = r,
      s'.attach (s.view v).binder (s.view v).source (s.view v).bindings (some false) = r' at hattach herror ⊢
    obtain ⟨t, e⟩ := r
    obtain ⟨t', e'⟩ := r'
    obtain rfl : e = e' := herror
    cases e with
    | some e => exact hattach
    | none =>
      simp only
      split
      · exact hattach
      · rw [(hattach.twin.binder _ hv).keys]
        exact hattach.trans (hattach.twin.holdings v _ _)

theorem unmount (v : Nat) : Paired b s s' (s.unmount v) (s'.unmount v) := by
  by_cases hv : (s.view v).binder = b.binder
  · exact h.aside (h.kept.unmount hv) (h.kept'.unmount (h.view_binder v ▸ hv))
  · have hview := h.holdings v [] false
    unfold Store.unmount
    simp only
    rw [← h.view hv]
    split
    · exact hview.trans (hview.twin.release hv _ _)
    · exact hview

/-! ## Reactions -/

/-- **What a binder other than the stranger does when it hears a notification.** -/
theorem react {l : Listener} (hl : (Hearer.listener l).isOf b.binder = false) (signal : Signal) :
    Paired b s s' (Session.react s l signal) (Session.react s' l signal) := by
  have hne {n : Nat} (hn : l.binder? = some n) : n ≠ b.binder := by
    rintro rfl
    simp [Hearer.isOf, hn] at hl
  have hlogged (notice : Notice) : Paired b s s' (s.log notice) (s'.log notice) := h.hushed (.log s _) (.log s' _)
  -- neither side's binder is retired unless the other's is
  unfold Session.react
  split
  · next n id set =>
    have hbindings := (h.registry (hne rfl)).bindingsOf id
    rw [(h.binder n (hne rfl)).retired]
    split
    · exact .refl h
    · unfold onChange
      simp only
      rw [isEmpty_eq_of_rel hbindings]
      split
      · exact hlogged _
      · exact h.renderAll_alike n (rel_filter (fun _ _ hx => hx.isTriggeredBy set) hbindings)
  · next n id =>
    rw [(h.binder n (hne rfl)).retired]
    split
    · exact .refl h
    · have hbindings := (h.registry (hne rfl)).bindingsOf id
      unfold onRequest
      simp only
      rw [hbindings.length_eq]
      have hforced := hlogged (.forcedRender id ((s'.binder n).registry.bindingsOf id).length)
      exact hforced.trans (hforced.twin.renderAll_alike n (hbindings.imp fun _ _ hx => hx.imp fun _ _ => hforced.guard))
  · next n id =>
    rw [(h.binder n (hne rfl)).retired]
    split
    · exact .refl h
    · exact (hlogged _).trans ((hlogged _).twin.unbindAll (hne rfl) _)
  · next n =>
    rw [(h.binder n (hne rfl)).retired]
    split
    · exact .refl h
    · exact (hlogged _).trans ((hlogged _).twin.detach (hne rfl))
  · exact .refl h

end Twin

end Store

/-! ## Tasks -/

open Store in
/-- **What is left to do is the same** but for the stranger's listeners among those who wait, and for answers. -/
inductive Task.Twin (b : Stranger) (s s' : Store) : Task → Task → Prop
  | notify {ch : Channel} {pinned pinned' : List Nat} {rest rest' : List Listener} (signal : Signal)
    (hch : ch.tree? = none) (hpinned : s.Tied b s' ch pinned pinned')
    (hrest : others b.binder rest = others b.binder rest') :
    Task.Twin b s s' (.notify ch pinned signal rest) (.notify ch pinned' signal rest')
  | dispatch {k : Nat} (hk : k ≠ b.tree) (pinned : List Nat) (event : String) (rest : List (EventHandler × Nat)) :
    Task.Twin b s s' (.dispatch k pinned event rest) (.dispatch k pinned event rest)
  | request (id : RecordId) : Task.Twin b s s' (.request id) (.request id)
  | trigger {k : Nat} (hk : k ≠ b.tree) (event : String) (targets : List Nat) (count : Nat) :
    Task.Twin b s s' (.trigger event k targets count) (.trigger event k targets count)
  | reply (outcome outcome' : Outcome) : Task.Twin b s s' (.reply outcome) (.reply outcome')

namespace Store

variable {b : Stranger} {s s' t t' : Store}

theorem Paired.task (h : Paired b s s' t t') {x x' : Task} (hx : x.Twin b s s' x') : x.Twin b t t' x' := by
  cases hx with
  | notify signal hch hpinned hrest => exact .notify signal hch (h.ties _ _ _ hpinned) hrest
  | dispatch hk pinned event rest => exact .dispatch hk pinned event rest
  | request id => exact .request id
  | trigger hk event targets count => exact .trigger hk event targets count
  | reply outcome outcome' => exact .reply outcome outcome'

/-- **Something done to both stores**, with what it leaves to do. -/
structure Concerted (b : Stranger) (s s' : Store) (r r' : Store × List Task) : Prop where
  paired : Paired b s s' r.1 r'.1
  tasks : List.Forall₂ (Task.Twin b r.1 r'.1) r.2 r'.2

/-- Then something is done, and more is left to do. -/
theorem Concerted.after {r r' : Store × List Task} (h : Paired b s s' t t') (h' : Concerted b t t' r r') :
    Concerted b s s' r r' := ⟨h.trans h'.paired, h'.tasks⟩

namespace Twin

variable (h : s.Twin b s')
include h

/-- **A notification begins on both sides.** -/
theorem notify (ch : Channel) (hch : ch.tree? = none) (signal : Signal) :
    Paired b s s' (s.notify ch signal).1 (s'.notify ch signal).1 ∧
      (s.notify ch signal).2.Twin b (s.notify ch signal).1 (s'.notify ch signal).1 (s'.notify ch signal).2 := by
  obtain ⟨hpaired, hpinned, hrest⟩ := h.draw hch
  exact ⟨hpaired, .notify signal hch hpinned hrest⟩

/-- **An event is passed up in a tree that is not the stranger's.** -/
theorem fire {k : Nat} (hk : k ≠ b.tree) (event : String) (target : Nat) :
    Paired b s s' (s.fire k event target).1 (s'.fire k event target).1 ∧
      (s.fire k event target).2 = (s'.fire k event target).2 ∧
      (s.fire k event target).2.1.Twin b (s.fire k event target).1 (s'.fire k event target).1
        (s'.fire k event target).2.1 := by
  have htree := h.tree hk
  unfold Store.fire drawEvent
  simp only
  rw [htree]
  exact ⟨h.modifyTree k fun _ => rfl, rfl, .dispatch hk _ _ _⟩

theorem batch (id : RecordId) (entries : List (String × Value)) :
    (s.record id).batch entries = (s'.record id).batch entries :=
  (congrArg (fun r : Record => r.batch entries) (h.record id) :)

theorem validated (id : RecordId) (x : Record.Batch) : Paired b s s' (s.validated id x) (s'.validated id x) := by
  have hconsult (s : Store) (asked : List (String × Value)) :
      s.Hushed (asked.foldl (fun s entry => s.observe (.validate entry.1 entry.2)) s) := by
    induction asked generalizing s with
    | nil => exact .refl s
    | cons entry rest ih => exact (Hushed.observe s _).trans (ih _)
  exact h.hushed ((hconsult s _).trans (.logAll _ _)) ((hconsult s' _).trans (.logAll _ _))

theorem stored (id : RecordId) (entries : List (String × Value)) :
    Paired b s s' (s.stored id entries) (s'.stored id entries) := by
  unfold Store.stored
  rw [← h.batch]
  have hvalidated := h.validated id ((s.record id).batch entries)
  refine hvalidated.trans (hvalidated.twin.modifyRecord_data id (fun r r' hr => ?_) fun _ => ⟨rfl, rfl⟩)
  have hplain (r : Record) : (r.commit ((s.record id).batch entries)).plain =
      r.plain.commit ((s.record id).batch entries) := rfl
  rw [hplain, hplain, hr]

omit h in
theorem requestsOf (id : RecordId) (x : Record.Batch) :
    List.Forall₂ (Task.Twin b s s') (requestsOf id x) (Store.requestsOf id x) := by
  unfold Store.requestsOf
  split
  · exact .nil
  · exact .cons (.request id) .nil

/-- **Writing fields.** -/
theorem write (id : RecordId) (entries : List (String × Value)) :
    Concerted b s s' (s.write id entries) (s'.write id entries) := by
  have hstored := h.stored id entries
  cases halive : (s.record id).alive with
  | false =>
    rw [write_of_dead halive, write_of_dead (h.alive id ▸ halive)]
    exact ⟨h.hushed (.log s _) (.log s' _), .nil⟩
  | true =>
    have halive' : (s'.record id).alive = true := h.alive id ▸ halive
    cases hchanged : ((s.record id).batch entries).changed.isEmpty with
    | true =>
      rw [write_of_unchanged halive hchanged, write_of_unchanged halive' (h.batch id entries ▸ hchanged), ← h.batch]
      exact ⟨hstored, requestsOf id _⟩
    | false =>
      rw [write_of_changed halive hchanged, write_of_changed halive' (h.batch id entries ▸ hchanged), ← h.batch]
      obtain ⟨hpaired, htask⟩ := hstored.twin.notify (.changes id) rfl
        (.changed ((s.record id).batch entries).changed)
      exact ⟨hstored.trans hpaired, .cons htask (requestsOf id _)⟩

/-- **Writing an edit back**, from a tree that is not the stranger's. -/
theorem writeBack {k : Nat} (hk : k ≠ b.tree) (event : String) (context : WriteBack) (x : Nat) :
    Concerted b s s' (s.writeBack k event context x) (s'.writeBack k event context x) := by
  unfold Store.writeBack
  simp only
  rw [h.arena hk, h.fields]
  have hlogged := h.hushed (.log s (.writtenBack context.record context.field event (((s'.arena k).readBack x
    context.attr).coerce ((s'.fields context.record).get context.field).kind context.negate))) (.log s' (.writtenBack
    context.record context.field event (((s'.arena k).readBack x context.attr).coerce ((s'.fields
    context.record).get context.field).kind context.negate)))
  exact .after hlogged (hlogged.twin.write _ _)

/-- **Removing a member.** -/
theorem removeMember (c : Nat) (id : RecordId) : Concerted b s s' (s.removeMember c id) (s'.removeMember c id) := by
  unfold Store.removeMember
  rw [h.members]
  split
  · have hremoved := h.modifyMembers c (·.erase id)
    have hlogged := hremoved.hushed (.log _ (.memberRemoved id)) (.log _ (.memberRemoved id))
    obtain ⟨hpaired, htask⟩ := hlogged.twin.notify (.removals c) rfl (.removed id)
    exact ⟨hlogged.trans hpaired, .cons htask (.cons (.reply _ _) .nil)⟩
  · exact ⟨.refl h, .cons (.reply _ _) .nil⟩

/-- **Replacing all members.** -/
theorem resetMembers (c : Nat) (members : List RecordId) :
    Concerted b s s' (s.resetMembers c members) (s'.resetMembers c members) := by
  have hreset := h.modifyMembers c fun _ => members
  have hlogged := hreset.hushed (.log _ (.collectionReset members.length)) (.log _ (.collectionReset members.length))
  obtain ⟨hpaired, htask⟩ := hlogged.twin.notify (.resets c) rfl .reset
  exact ⟨hlogged.trans hpaired, .cons htask (.cons (.reply _ _) .nil)⟩

/-- Clearing a free list. -/
theorem clearList (n : Nat) : Paired b s s' (s.modifyList n Roster.clear) (s'.modifyList n Roster.clear) :=
  h.modifyRoster (.list n) rfl Roster.uniform_clear Roster.uniform_clear (fun _ => Roster.sound_clear)
    (fun _ => Roster.sound_clear) fun _ _ hids => hids.clear

end Twin

end Store

end Databind
