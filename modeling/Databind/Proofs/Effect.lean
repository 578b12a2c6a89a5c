import Databind.Proofs.Channel
import Databind.Proofs.Deed
import Databind.Proofs.Growth

/-!
# `Proofs.Effect` — everything that can happen to a store

An effect is one thing that happens to a store, with its deeds. There are few of them: all operations of
binders, views, records and collections, all commands and all steps of a machine are made of effects, so what
every effect preserves holds at every point of every run.

A scene is a store together with the call lists that are running, the innermost first: drawing up a call list
pins those on it, and finishing it takes the pins back.

## Main definitions

* `Store.Extends` — nothing that binders depend on has changed, though new objects may have come.
* `Scene`, `Effect`, `Effects` — what can happen, once and any number of times.
-/

namespace Databind

/-- A callback of the host, as opposed to a reaction of a binder. -/
def Hearer.IsCallback : Hearer → Prop
  | .listener l => ∃ k, l = .callback k
  | .handler d => ∃ k, d.handler = .callback k

/-- Whether a notice tells of a rendering. -/
def Notice.isRendering : Notice → Bool
  | noElement _ _ => true
  | rendered _ _ _ _ => true
  | _ => false

namespace Store

/-- The collections that views are to be attached to are there. -/
def Sourced (s : Store) : Prop := ∀ v c, (s.view v).source = .collection c → c < s.collections.size

/-- The notices of renderings. -/
def renderings (s : Store) : List Notice := s.journal.notices.filter Notice.isRendering

/-- Binders, listeners, fields and lives are as before; new objects may have come. -/
structure Keeps (s s' : Store) : Prop where
  binders : s'.binders = s.binders
  roster : ∀ ch, s'.roster ch = s.roster ch
  fields : ∀ id : RecordId, id.number < s.records.size → s'.fields id = s.fields id
  alive : ∀ id : RecordId, id.number < s.records.size → (s'.record id).alive = (s.record id).alive
  version : ∀ id, (s'.record id).version = (s.record id).version
  proper : ∀ id, (s.fields id).Proper → (s'.fields id).Proper
  records : s.records.size ≤ s'.records.size
  collections : s.collections.size ≤ s'.collections.size
  trees : s.trees.size ≤ s'.trees.size
  lists : s.lists.size ≤ s'.lists.size
  views : s.views.size ≤ s'.views.size
  viewBinder : ∀ v, v < s.views.size → (s'.view v).binder = (s.view v).binder
  sourced : s.Sourced → s'.Sourced

/-- The same, nothing was rendered, and trees that can be built became such trees. -/
structure Extends (s s' : Store) : Prop extends s.Keeps s' where
  renderings : s'.renderings = s.renderings
  grown : ∀ k, s.Grown k → s'.Grown k

theorem Keeps.refl (s : Store) : s.Keeps s :=
  ⟨rfl, fun _ => rfl, fun _ _ => rfl, fun _ _ => rfl, fun _ => rfl, fun _ => id, Nat.le_refl _, Nat.le_refl _,
    Nat.le_refl _, Nat.le_refl _, Nat.le_refl _, fun _ _ => rfl, id⟩

/-- What is there at first is there in between, so its fields and lives are kept throughout. -/
theorem Keeps.trans {a b c : Store} (h : a.Keeps b) (h' : b.Keeps c) : a.Keeps c where
  binders := h'.binders.trans h.binders
  roster ch := (h'.roster ch).trans (h.roster ch)
  fields id hid := (h'.fields id (Nat.lt_of_lt_of_le hid h.records)).trans (h.fields id hid)
  alive id hid := (h'.alive id (Nat.lt_of_lt_of_le hid h.records)).trans (h.alive id hid)
  version id := (h'.version id).trans (h.version id)
  proper id hid := h'.proper id (h.proper id hid)
  records := Nat.le_trans h.records h'.records
  collections := Nat.le_trans h.collections h'.collections
  trees := Nat.le_trans h.trees h'.trees
  lists := Nat.le_trans h.lists h'.lists
  views := Nat.le_trans h.views h'.views
  viewBinder v hv := (h'.viewBinder v (Nat.lt_of_lt_of_le hv h.views)).trans (h.viewBinder v hv)
  sourced hs := h'.sourced (h.sourced hs)

theorem Keeps.binder {s s' : Store} (h : s.Keeps s') (n : Nat) : s'.binder n = s.binder n := by
  simp only [Store.binder, h.binders]

theorem Extends.refl (s : Store) : s.Extends s := ⟨.refl s, rfl, fun _ => id⟩

theorem Extends.trans {a b c : Store} (h : a.Extends b) (h' : b.Extends c) : a.Extends c :=
  ⟨h.toKeeps.trans h'.toKeeps, h'.renderings.trans h.renderings, fun k hk => h'.grown k (h.grown k hk)⟩

variable (s : Store)

/-! ## Changes that extend a store -/

/-- A change of the journal alone. -/
theorem keeps_journal (j : Journal) : s.Keeps { s with journal := j } :=
  ⟨rfl, s.roster_congr rfl rfl rfl rfl, fun _ _ => rfl, fun _ _ => rfl, fun _ => rfl, fun _ => id, Nat.le_refl _,
    Nat.le_refl _, Nat.le_refl _, Nat.le_refl _, Nat.le_refl _, fun _ _ => rfl, id⟩

/-- A notice adds to the renderings if it tells of one. -/
theorem renderings_log (notice : Notice) :
    (s.log notice).renderings = s.renderings ++ [notice].filter Notice.isRendering := List.filter_append ..

theorem extends_log (notice : Notice) (h : notice.isRendering = false) : s.Extends (s.log notice) :=
  ⟨s.keeps_journal _, by rw [renderings_log, List.filter_singleton, h]; exact List.append_nil _, fun _ => id⟩

theorem extends_observe (event : Event) : s.Extends (s.observe event) := ⟨s.keeps_journal _, rfl, fun _ => id⟩

theorem extends_logAll {α : Type} (f : α → Notice) (xs : List α)
    (h : ∀ x, (f x).isRendering = false) : s.Extends (s.logAll (xs.map f)) := by
  induction xs generalizing s with
  | nil => exact .refl s
  | cons x rest ih => exact (s.extends_log (f x) (h x)).trans (ih _)

/-- A change of a record beside its listeners, its fields, its version and its life. -/
theorem extends_modifyRecord (id : RecordId) {f : Record → Record}
    (h : ∀ r, (f r).changes = r.changes ∧ (f r).requests = r.requests ∧ (f r).fields = r.fields ∧
      (f r).version = r.version ∧ (f r).alive = r.alive) : s.Extends (s.modifyRecord id f) := by
  have hrecord : ∀ id', ((s.modifyRecord id f).record id').changes = (s.record id').changes ∧
      ((s.modifyRecord id f).record id').requests = (s.record id').requests ∧
      ((s.modifyRecord id f).record id').fields = (s.record id').fields ∧
      ((s.modifyRecord id f).record id').version = (s.record id').version ∧
      ((s.modifyRecord id f).record id').alive = (s.record id').alive := by
    intro id'
    rw [record_modifyRecord]
    split
    · next hid =>
      rw [hid.1]
      exact h _
    · exact ⟨rfl, rfl, rfl, rfl, rfl⟩
  refine ⟨⟨rfl, fun ch => ?_, fun id' _ => (hrecord id').2.2.1, fun id' _ => (hrecord id').2.2.2.2,
    fun id' => (hrecord id').2.2.2.1, fun id' hproper => ?_, ?_, Nat.le_refl _, Nat.le_refl _, Nat.le_refl _,
    Nat.le_refl _, fun _ _ => rfl, fun hs => hs⟩, rfl, fun _ h => h⟩
  · cases ch with
    | changes id' => simp only [roster, (hrecord id').1]
    | requests id' => simp only [roster, (hrecord id').2.1]
    | _ => rfl
  · rw [Store.fields, (hrecord id').2.2.1]
    exact hproper
  · simp [modifyRecord]

/-- A change of a collection's members. -/
theorem extends_modifyCollection (n : Nat) {f : Collection → Collection}
    (h : ∀ c, (f c).removals = c.removals ∧ (f c).resets = c.resets) :
    s.Extends (s.modifyCollection n f) := by
  have hsize : (s.modifyCollection n f).collections.size = s.collections.size := Array.size_modify ..
  refine ⟨⟨rfl, fun ch => ?_, fun _ _ => rfl, fun _ _ => rfl, fun _ => rfl, fun _ => id, Nat.le_refl _,
    Nat.le_of_eq hsize.symm, Nat.le_refl _, Nat.le_refl _, Nat.le_refl _, fun _ _ => rfl,
    fun hs v c hv => hsize ▸ hs v c hv⟩, rfl, fun _ => id⟩
  · cases ch with
    | removals n' =>
      simp only [roster, collection_modifyCollection]
      split
      · next hn => rw [(h _).1, hn.1]
      · rfl
    | resets n' =>
      simp only [roster, collection_modifyCollection]
      split
      · next hn => rw [(h _).2, hn.1]
      · rfl
    | _ => rfl

/-- Whatever becomes of a tree's elements, nothing else changes. -/
theorem keeps_modifyArena (n : Nat) (f : Arena → Arena) : s.Keeps (s.modifyArena n f) := by
  refine ⟨rfl, fun ch => ?_, fun _ _ => rfl, fun _ _ => rfl, fun _ => rfl, fun _ => id, Nat.le_refl _,
    Nat.le_refl _, ?_, Nat.le_refl _, Nat.le_refl _, fun _ _ => rfl, id⟩
  · unfold modifyArena
    rw [roster_modifyTree]
    split
    · next hn => rw [hn.1]; rfl
    · rfl
  · simp [modifyArena, modifyTree]

theorem size_trees_modifyArena (n : Nat) (f : Arena → Arena) : (s.modifyArena n f).trees.size = s.trees.size := by
  simp [modifyArena, modifyTree]

/-- **A tree that can be built** is one after its elements are changed, if the change builds such trees. -/
theorem grown_modifyArena {n : Nat} {f : Arena → Arena} (hf : (s.arena n).Grown → (f (s.arena n)).Grown) (k : Nat)
    (h : s.Grown k) : (s.modifyArena n f).Grown k := by
  intro hk
  rw [size_trees_modifyArena] at hk
  unfold modifyArena arena
  rw [tree_modifyTree]
  split
  · next hn =>
    obtain ⟨rfl, -⟩ := hn
    exact hf (h hk)
  · exact h hk

/-- A change of a tree's elements by which trees are built. -/
theorem extends_modifyArena {n : Nat} {f : Arena → Arena} (hf : (s.arena n).Grown → (f (s.arena n)).Grown) :
    s.Extends (s.modifyArena n f) :=
  ⟨s.keeps_modifyArena n f, rfl, s.grown_modifyArena hf⟩

/-- A change of what a view attaches and owns. -/
theorem extends_modifyView (v : Nat) {f : View → View} (h : ∀ x, (f x).binder = x.binder)
    (hsource : ∀ x c, (f x).source = .collection c → x.source = .collection c ∨ c < s.collections.size) :
    s.Extends (s.modifyView v f) := by
  refine ⟨⟨rfl, fun _ => rfl, fun _ _ => rfl, fun _ _ => rfl, fun _ => rfl, fun _ => id, Nat.le_refl _, Nat.le_refl _,
    Nat.le_refl _, Nat.le_refl _, ?_, fun v' _ => ?_, fun hs v' c hc => ?_⟩, rfl, fun _ => id⟩
  · simp [modifyView]
  · rw [view_modifyView]
    split
    · next hv => rw [h, hv.1]
    · rfl
  · rw [view_modifyView] at hc
    split at hc
    · exact (hsource _ c hc).elim (hs v c) id
    · exact hs v' c hc

/-! ## New objects -/

theorem getD_push_of_lt {α : Type} (xs : Array α) (x d : α) {j : Nat} (h : j < xs.size) :
    (xs.push x).getD j d = xs.getD j d := by
  rw [getD_push, if_neg (Nat.ne_of_lt h)]

/-- A new record has no listeners, and its fields hold no `undefined`. -/
theorem extends_addRecord {fields : Fields} (hfields : fields.Proper) :
    s.Extends (s.addRecord (.ofFields fields)) := by
  refine ⟨⟨rfl, fun ch => ?_, fun id hid => ?_, fun id hid => ?_, fun id => ?_, fun id hproper => ?_, ?_, Nat.le_refl _,
    Nat.le_refl _, Nat.le_refl _, Nat.le_refl _, fun _ _ => rfl, id⟩, rfl, fun _ => id⟩
  · have hrecord : ∀ id : RecordId, ((s.addRecord (.ofFields fields)).record id).changes =
        (s.record id).changes ∧ ((s.addRecord (.ofFields fields)).record id).requests =
        (s.record id).requests := by
      intro id
      simp only [record, addRecord, getD_push]
      split
      · next hid => simp only [hid, Array.getD_eq_getD_getElem?, Array.getElem?_size]; exact ⟨rfl, rfl⟩
      · exact ⟨rfl, rfl⟩
    cases ch with
    | changes id => simp only [roster, (hrecord id).1]
    | requests id => simp only [roster, (hrecord id).2]
    | _ => rfl
  · simp only [Store.fields, record, addRecord, getD_push_of_lt _ _ _ hid]
  · simp only [record, addRecord, getD_push_of_lt _ _ _ hid]
  · simp only [record, addRecord, getD_push]
    split
    · next hid => simp only [hid, Array.getD_eq_getD_getElem?, Array.getElem?_size]; rfl
    · rfl
  · simp only [Store.fields, record, addRecord, getD_push] at hproper ⊢
    split
    · exact hfields
    · exact hproper
  · simp [addRecord]

/-- A new collection has no listeners. -/
theorem extends_addCollection (members : List RecordId) :
    s.Extends (s.addCollection (.ofMembers members)) := by
  have hsize : s.collections.size ≤ (s.addCollection (.ofMembers members)).collections.size := by
    simp [addCollection]
  refine ⟨⟨rfl, fun ch => ?_, fun _ _ => rfl, fun _ _ => rfl, fun _ => rfl, fun _ => id, Nat.le_refl _, hsize,
    Nat.le_refl _,
    Nat.le_refl _, Nat.le_refl _, fun _ _ => rfl, fun hs v c hv => Nat.lt_of_lt_of_le (hs v c hv) hsize⟩, rfl,
    fun _ => id⟩
  · cases ch with
    | removals n | resets n =>
      simp only [roster, collection, addCollection, getD_push]
      split
      · next hn => simp only [hn, Array.getD_eq_getD_getElem?, Array.getElem?_size]; rfl
      · rfl
    | _ => rfl

/-- **A new tree** that can be built has no handlers yet. -/
theorem extends_addTree {arena : Arena} (harena : arena.Grown) : s.Extends (s.addTree (.ofArena arena)) := by
  refine ⟨⟨rfl, fun ch => ?_, fun _ _ => rfl, fun _ _ => rfl, fun _ => rfl, fun _ => id, Nat.le_refl _,
    Nat.le_refl _, ?_, Nat.le_refl _, Nat.le_refl _, fun _ _ => rfl, id⟩, rfl, fun k h hk => ?_⟩
  · cases ch with
    | delegations n =>
      simp only [roster, tree, addTree, getD_push]
      split
      · next hn => simp only [hn, Array.getD_eq_getD_getElem?, Array.getElem?_size]; rfl
      · rfl
    | _ => rfl
  · simp [addTree]
  · rw [addTree, Array.size_push] at hk
    simp only [Store.arena, tree, addTree, getD_push]
    split
    · exact harena
    · next hn => exact h (Nat.lt_of_le_of_ne (Nat.le_of_lt_succ hk) hn)

theorem extends_addList : s.Extends s.addList := by
  refine ⟨⟨rfl, fun ch => ?_, fun _ _ => rfl, fun _ _ => rfl, fun _ => rfl, fun _ => id, Nat.le_refl _, Nat.le_refl _,
    Nat.le_refl _, ?_, Nat.le_refl _, fun _ _ => rfl, id⟩, rfl, fun _ => id⟩
  · cases ch with
    | list n =>
      simp only [roster, list, addList, getD_push]
      split
      · next hn => simp only [hn, Array.getD_eq_getD_getElem?, Array.getElem?_size]; rfl
      · rfl
    | _ => rfl
  · simp [addList]

/-- A new view whose collection is there. -/
theorem extends_addView {x : View} (hsource : ∀ c, x.source = .collection c → c < s.collections.size) :
    s.Extends (s.addView x) := by
  refine ⟨⟨rfl, fun _ => rfl, fun _ _ => rfl, fun _ _ => rfl, fun _ => rfl, fun _ => id, Nat.le_refl _, Nat.le_refl _,
    Nat.le_refl _, Nat.le_refl _, ?_, fun v hv => ?_, fun hs v c hc => ?_⟩, rfl, fun _ => id⟩
  · simp [addView]
  · simp only [view, addView, getD_push_of_lt _ _ _ hv]
  · simp only [view, addView, getD_push] at hc
    split at hc
    · exact hsource c hc
    · exact hs v c hc

end Store

/-! ## Effects -/

/-- A store with the call lists that are running, each with its channel and the listeners it pins. -/
structure Scene where
  store : Store
  calls : List (Channel × List Nat)

/-- **One thing that happens to a store, with its deeds.** -/
inductive Effect : Scene → List Deed → Scene → Prop
  | extended {s s' calls} (h : Store.Extends s s') : Effect ⟨s, calls⟩ [] ⟨s', calls⟩
  | strayed {s calls} (k : Nat) (f : Arena → Arena) :
    Effect ⟨s, calls⟩ [.strayed k] ⟨s.modifyArena k f, calls⟩
  | read {s calls} : Effect ⟨s, calls⟩ [.read] ⟨s.emptyJournal, calls⟩
  | wrote {s calls} (id : RecordId) (b : Record.Batch) :
    Effect ⟨s, calls⟩ [.wrote id] ⟨s.modifyRecord id (·.commit b), calls⟩
  | destroyed {s calls} (id : RecordId) :
    Effect ⟨s, calls⟩ [.destroyed id] ⟨s.modifyRecord id Record.destroy, calls⟩
  | addedBinder {s calls} (scope : Scope) (config : Config) (hscope : scope.tree < s.trees.size) :
    Effect ⟨s, calls⟩ [.act s.binders.size .made] ⟨s.addBinder (.ofScope scope config), calls⟩
  | bound {s calls} (n : Nat) (p : Prepared) (hlive : (s.binder n).retired = false)
    (halive : (s.record p.record).alive = true)
    (hfield : p.event.isSome → p.normalized.accessor.field?.isSome) :
    Effect ⟨s, calls⟩ [.act n (.bound p)] ⟨s.commit n { p with autoRender := false }, calls⟩
  | removed {s calls} (n : Nat) (id : RecordId) (key : BindingKey)
    (h : ((s.binder n).registry.find? id key).isSome) :
    Effect ⟨s, calls⟩ [.act n (.removed id key)] ⟨s.removeBinding n id key, calls⟩
  | absent {s calls} (n : Nat) (id : RecordId) (key : BindingKey)
    (h : (s.binder n).registry.find? id key = none) :
    Effect ⟨s, calls⟩ [.act n (.removed id key)] ⟨s, calls⟩
  | cleared {s calls} (n : Nat) (id : Option RecordId) :
    Effect ⟨s, calls⟩ [.act n (.cleared id)] ⟨s.unbindAll n id, calls⟩
  | joined {s calls} (n c : Nat) (hlive : (s.binder n).retired = false) (hc : c < s.collections.size) :
    Effect ⟨s, calls⟩ [.act n (.joined c)] ⟨s.listenCollection n c, calls⟩
  | left {s calls} (n : Nat) : Effect ⟨s, calls⟩ [.act n .left] ⟨s.leaveCollections n, calls⟩
  | retired {s calls} (n : Nat) : Effect ⟨s, calls⟩ [.act n .retired] ⟨s.retire n, calls⟩
  | heard {s calls} (n : Nat) (l : Listener) (signal : Signal) :
    Effect ⟨s, calls⟩ [.act n (.heard l signal)] ⟨s, calls⟩
  | rendered {s calls} (n : Nat) (b : Binding) :
    Effect ⟨s, calls⟩ [.act n (.rendered b.unguarded (s.fields b.record))] ⟨s.render n b, calls⟩
  | subscribed {s calls} (ch : Channel) (k : Nat) :
    Effect ⟨s, calls⟩ [] ⟨(s.subscribe ch (.callback k)).1, calls⟩
  | delegated {s calls} (scope : Scope) (event : String) (selector : Option Selector) (k : Nat) :
    Effect ⟨s, calls⟩ [] ⟨(s.attachHandler scope event selector (.callback k)).1, calls⟩
  | dropped {s calls} (g : Guard) (h : ∀ x, (s.roster g.channel).Holds g.id x → x.IsCallback) :
    Effect ⟨s, calls⟩ [] ⟨s.drop g, calls⟩
  | clearedList {s calls} (n : Nat) : Effect ⟨s, calls⟩ [] ⟨s.modifyList n Roster.clear, calls⟩
  | drew {s calls} (ch : Channel) :
    Effect ⟨s, calls⟩ [] ⟨(s.draw ch).1, (ch, (s.draw ch).2.map (·.id)) :: calls⟩
  | drewEvent {s calls} (n : Nat) (event : String) (target : Nat) :
    Effect ⟨s, calls⟩ [] ⟨(s.drawEvent n event target).1,
      (.delegations n, (s.drawEvent n event target).2.map (·.1.id)) :: calls⟩
  | finished {s calls} (ch : Channel) (ids : List Nat) :
    Effect ⟨s, (ch, ids) :: calls⟩ [] ⟨s.finish ch ids, calls⟩

/-- **Anything that can happen**: effects one after the other, with all their deeds. -/
inductive Effects : Scene → List Deed → Scene → Prop
  | refl (a : Scene) : Effects a [] a
  | tail {a b c : Scene} {ds ds' : List Deed} (h : Effects a ds b) (h' : Effect b ds' c) :
    Effects a (ds ++ ds') c

namespace Effects

theorem trans {a b c : Scene} {ds ds' : List Deed} (h : Effects a ds b) (h' : Effects b ds' c) :
    Effects a (ds ++ ds') c := by
  induction h' with
  | refl => rwa [List.append_nil]
  | tail _ hlast ih =>
    rw [← List.append_assoc]
    exact ih.tail hlast

theorem single {a b : Scene} {ds : List Deed} (h : Effect a ds b) : Effects a ds b := (refl a).tail h

theorem extended {s s' : Store} (h : s.Extends s') (calls : List (Channel × List Nat)) :
    Effects ⟨s, calls⟩ [] ⟨s', calls⟩ := single (.extended h)

/-- First something that extends the store, then anything. -/
theorem after_extends {s s' : Store} {calls : List (Channel × List Nat)} {ds : List Deed} {c : Scene}
    (h : s.Extends s') (h' : Effects ⟨s', calls⟩ ds c) : Effects ⟨s, calls⟩ ds c := (extended h calls).trans h'

/-- First anything, then something that extends the store. -/
theorem then_extends {s s' : Store} {calls : List (Channel × List Nat)} {ds : List Deed} {a : Scene}
    (h : Effects a ds ⟨s, calls⟩) (h' : s.Extends s') : Effects a ds ⟨s', calls⟩ := by
  have htrans := h.trans (extended h' calls)
  rwa [List.append_nil] at htrans

end Effects

end Databind
