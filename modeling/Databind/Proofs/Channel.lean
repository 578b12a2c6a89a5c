import Databind.Proofs.Roster
import Databind.Store.Query

/-!
# `Proofs.Channel` — a store seen by its channels

All rosters of a store hang on channels, those of a tree's handlers included. `Store.roster` looks at any of
them alike, so each law about listeners is stated once for all channels. The laws of this module say what the
basic changes of a store do to its objects and to its rosters.
-/

namespace Databind

/-- Who hears something: a listener of a notification, or a handler of events. -/
inductive Hearer where
  | listener (l : Listener)
  | handler (d : Delegation)

/-- A change that looks at no listener and leaves the empty roster empty. -/
structure Roster.Uniform (f : {α : Type} → Roster α → Roster α) : Prop where
  map : ∀ {α β : Type} (g : α → β) (r : Roster α), (f r).map g = f (r.map g)
  empty : ∀ {α : Type}, f (Roster.empty : Roster α) = Roster.empty

namespace Roster

/-- Dropping a guard does not look at the listeners, and nor does any other operation of a roster. -/
theorem uniform_release (i : Nat) : Uniform fun r => r.release i :=
  ⟨fun g r => map_release g r i, rfl⟩

theorem uniform_clear : Uniform fun r => r.clear := ⟨fun g r => map_clear g r, rfl⟩

theorem uniform_draw (ids : List Nat) : Uniform fun r => r.prune.pin ids :=
  ⟨fun g r => by rw [map_pin, map_prune], rfl⟩

theorem uniform_unpin (ids : List Nat) : Uniform fun r => r.unpin ids :=
  ⟨fun g r => map_unpin g r ids, rfl⟩

end Roster

/-! ## Arrays read with a default -/

/-- A change at a place that is not there changes nothing. -/
theorem getD_modify {α : Type} (xs : Array α) (i j : Nat) (f : α → α) (d : α) :
    (xs.modify i f).getD j d = if j = i ∧ i < xs.size then f (xs.getD i d) else xs.getD j d := by
  simp only [Array.getD_eq_getD_getElem?, Array.getElem?_modify]
  by_cases hij : j = i
  · subst hij
    by_cases hlt : j < xs.size
    · simp [hlt]
    · simp [hlt]
  · have hne : ¬i = j := fun h => hij h.symm
    simp [hij, hne]

theorem getD_push {α : Type} (xs : Array α) (x : α) (j : Nat) (d : α) :
    (xs.push x).getD j d = if j = xs.size then x else xs.getD j d := by
  simp only [Array.getD_eq_getD_getElem?, Array.getElem?_push]
  by_cases hj : j = xs.size
  · simp [hj]
  · simp [hj]

/-- The tree whose events a channel carries. -/
def Channel.tree? : Channel → Option Nat
  | .delegations n => some n
  | _ => none

namespace Store

/-- The listeners on a channel, or the handlers of a tree's events. -/
def roster (s : Store) : Channel → Roster Hearer
  | .changes id => (s.record id).changes.map .listener
  | .requests id => (s.record id).requests.map .listener
  | .removals n => (s.collection n).removals.map .listener
  | .resets n => (s.collection n).resets.map .listener
  | .delegations n => (s.tree n).delegations.map .handler
  | .list n => (s.list n).map .listener

/-- The object that a channel belongs to is there. -/
def HasChannel (s : Store) : Channel → Prop
  | .changes id => id.number < s.records.size
  | .requests id => id.number < s.records.size
  | .removals n => n < s.collections.size
  | .resets n => n < s.collections.size
  | .delegations n => n < s.trees.size
  | .list n => n < s.lists.size

instance (s : Store) : DecidablePred s.HasChannel
  | .changes id => inferInstanceAs (Decidable (id.number < s.records.size))
  | .requests id => inferInstanceAs (Decidable (id.number < s.records.size))
  | .removals n => inferInstanceAs (Decidable (n < s.collections.size))
  | .resets n => inferInstanceAs (Decidable (n < s.collections.size))
  | .delegations n => inferInstanceAs (Decidable (n < s.trees.size))
  | .list n => inferInstanceAs (Decidable (n < s.lists.size))

/-! ## Objects after a change -/

variable (s : Store)

theorem record_modifyRecord (id id' : RecordId) (f : Record → Record) :
    (s.modifyRecord id f).record id' =
      if id' = id ∧ id.number < s.records.size then f (s.record id) else s.record id' := by
  have heq : id' = id ↔ id'.number = id.number :=
    ⟨fun h => h ▸ rfl, fun h => by cases id; cases id'; exact congrArg RecordId.mk h⟩
  simp only [record, modifyRecord, getD_modify, heq]

theorem collection_modifyCollection (n n' : Nat) (f : Collection → Collection) :
    (s.modifyCollection n f).collection n' =
      if n' = n ∧ n < s.collections.size then f (s.collection n) else s.collection n' := by
  simp only [collection, modifyCollection, getD_modify]

theorem tree_modifyTree (n n' : Nat) (f : Tree → Tree) :
    (s.modifyTree n f).tree n' = if n' = n ∧ n < s.trees.size then f (s.tree n) else s.tree n' := by
  simp only [tree, modifyTree, getD_modify]

/-- A change of a tree's handlers leaves the elements of every tree alone. -/
theorem arena_modifyTree (n n' : Nat) {f : Tree → Tree} (hf : ∀ t, (f t).arena = t.arena) :
    (s.modifyTree n f).arena n' = s.arena n' := by
  rw [arena, tree_modifyTree]
  split
  · next h => rw [hf, h.1, arena]
  · rfl

theorem binder_modifyBinder (n n' : Nat) (f : Binder → Binder) :
    (s.modifyBinder n f).binder n' =
      if n' = n ∧ n < s.binders.size then f (s.binder n) else s.binder n' := by
  simp only [binder, modifyBinder, getD_modify]

theorem view_modifyView (n n' : Nat) (f : View → View) :
    (s.modifyView n f).view n' = if n' = n ∧ n < s.views.size then f (s.view n) else s.view n' := by
  simp only [view, modifyView, getD_modify]

theorem list_modifyList (n n' : Nat) (f : Roster Listener → Roster Listener) :
    (s.modifyList n f).list n' = if n' = n ∧ n < s.lists.size then f (s.list n) else s.list n' := by
  simp only [list, modifyList, getD_modify]

theorem record_of_size_le {id : RecordId} (h : ¬id.number < s.records.size) : s.record id = default := by
  simp [record, h]

theorem collection_of_size_le {n : Nat} (h : ¬n < s.collections.size) : s.collection n = default := by
  simp [collection, h]

theorem tree_of_size_le {n : Nat} (h : ¬n < s.trees.size) : s.tree n = default := by simp [tree, h]

theorem binder_of_size_le {n : Nat} (h : ¬n < s.binders.size) : s.binder n = default := by
  simp [binder, h]

theorem list_of_size_le {n : Nat} (h : ¬n < s.lists.size) : s.list n = default := by simp [list, h]

/-- **A record that is alive is there.** -/
theorem lt_of_alive {id : RecordId} (h : (s.record id).alive = true) : id.number < s.records.size := by
  by_contra hlt
  rw [s.record_of_size_le hlt] at h
  exact Bool.false_ne_true h

/-- **A binder that is not retired is there.** -/
theorem lt_of_not_retired {n : Nat} (h : (s.binder n).retired = false) : n < s.binders.size := by
  by_contra hlt
  rw [s.binder_of_size_le hlt] at h
  exact Bool.false_ne_true h.symm

/-! ## Rosters after a change -/

/-- The rosters do not depend on binders, views and the journal. -/
theorem roster_congr {s s' : Store} (hr : s'.records = s.records) (hc : s'.collections = s.collections)
    (ht : s'.trees = s.trees) (hl : s'.lists = s.lists) (ch : Channel) : s'.roster ch = s.roster ch := by
  cases ch <;> simp only [roster, record, collection, tree, list, hr, hc, ht, hl]

/-- Nobody listens on a channel of an object that is not there. -/
theorem roster_of_not_hasChannel {ch : Channel} (h : ¬s.HasChannel ch) : s.roster ch = .empty := by
  cases ch with
  | changes id | requests id => simp only [roster, s.record_of_size_le h]; rfl
  | removals n | resets n => simp only [roster, s.collection_of_size_le h]; rfl
  | delegations n => simp only [roster, s.tree_of_size_le h]; rfl
  | list n => simp only [roster, s.list_of_size_le h]; rfl

theorem roster_eq_listeners {ch : Channel} (h : ch.tree? = none) :
    s.roster ch = (s.listeners ch).map .listener := by
  cases ch with
  | delegations n => cases h
  | _ => rfl

/-- Change the listeners on a channel other than those of a tree. -/
def modifyListeners (ch : Channel) (f : Roster Listener → Roster Listener) : Store :=
  match ch with
  | .changes id => s.modifyRecord id fun r => { r with changes := f r.changes }
  | .requests id => s.modifyRecord id fun r => { r with requests := f r.requests }
  | .removals n => s.modifyCollection n fun c => { c with removals := f c.removals }
  | .resets n => s.modifyCollection n fun c => { c with resets := f c.resets }
  | .delegations _ => s
  | .list n => s.modifyList n f

/-- **Changing the listeners on one channel leaves all other channels as they are.** -/
theorem roster_modifyListeners (f : Roster Listener → Roster Listener) {ch : Channel}
    (h : ch.tree? = none) (ch' : Channel) :
    (s.modifyListeners ch f).roster ch' =
      if ch' = ch ∧ s.HasChannel ch then (f (s.listeners ch)).map .listener else s.roster ch' := by
  cases ch with
  | changes id =>
    cases ch' <;> simp only [modifyListeners, roster, record_modifyRecord, Channel.changes.injEq, HasChannel,
      listeners, reduceCtorEq, false_and, if_false]
    all_goals first | rfl | (split <;> simp_all)
  | requests id =>
    cases ch' <;> simp only [modifyListeners, roster, record_modifyRecord, Channel.requests.injEq, HasChannel,
      listeners, reduceCtorEq, false_and, if_false]
    all_goals first | rfl | (split <;> simp_all)
  | removals n =>
    cases ch' <;> simp only [modifyListeners, roster, collection_modifyCollection, Channel.removals.injEq,
      HasChannel, listeners, reduceCtorEq, false_and, if_false]
    all_goals first | rfl | (split <;> simp_all)
  | resets n =>
    cases ch' <;> simp only [modifyListeners, roster, collection_modifyCollection, Channel.resets.injEq,
      HasChannel, listeners, reduceCtorEq, false_and, if_false]
    all_goals first | rfl | (split <;> simp_all)
  | delegations n => cases h
  | list n =>
    cases ch' <;> simp only [modifyListeners, roster, list_modifyList, Channel.list.injEq, HasChannel,
      listeners, reduceCtorEq, false_and, if_false]
    all_goals first | rfl | (split <;> simp_all)

/-- A change of a tree is one of the roster of its handlers. -/
theorem roster_modifyTree (n : Nat) (f : Tree → Tree) (ch : Channel) :
    (s.modifyTree n f).roster ch =
      if ch = .delegations n ∧ n < s.trees.size then (f (s.tree n)).delegations.map .handler
      else s.roster ch := by
  cases ch <;> simp only [roster, tree_modifyTree, Channel.delegations.injEq, reduceCtorEq, false_and, if_false]
  all_goals first | rfl | (split <;> simp_all)

/-- **A uniform change of the roster on one channel leaves all others as they are.** -/
theorem roster_modifyRoster {f : {α : Type} → Roster α → Roster α} (hf : Roster.Uniform f)
    (ch ch' : Channel) :
    (s.modifyRoster ch f).roster ch' = if ch' = ch then f (s.roster ch) else s.roster ch' := by
  have hroster : (s.modifyRoster ch f).roster ch' =
      if ch' = ch ∧ s.HasChannel ch then f (s.roster ch) else s.roster ch' := by
    cases hch : ch.tree? with
    | none =>
      have heq : s.modifyRoster ch f = s.modifyListeners ch f := by cases ch <;> first | rfl | cases hch
      rw [heq, s.roster_modifyListeners f hch, hf.map, ← s.roster_eq_listeners hch]
    | some n =>
      cases ch with
      | delegations n =>
        have htree := s.roster_modifyTree n (fun t => { t with delegations := f t.delegations }) ch'
        rw [hf.map] at htree
        exact htree
      | _ => cases hch
  rw [hroster]
  by_cases hch : ch' = ch
  · by_cases hthere : s.HasChannel ch
    · simp [hch, hthere]
    · simp [hch, hthere, s.roster_of_not_hasChannel hthere, hf.empty]
  · simp [hch]

/-- **A new listener is added to its own channel.** -/
theorem roster_subscribe (l : Listener) {ch : Channel} (h : ch.tree? = none) (ch' : Channel) :
    (s.subscribe ch l).1.roster ch' =
      if ch' = ch ∧ s.HasChannel ch then (s.roster ch).subscribe (.listener l) else s.roster ch' := by
  have heq : (s.subscribe ch l).1 = s.modifyListeners ch fun r => r.subscribe l := by
    cases ch <;> rfl
  rw [heq, s.roster_modifyListeners _ h, Roster.map_subscribe, ← s.roster_eq_listeners h]

/-- **A new listener is held under the next identity** of its roster. -/
theorem guard_subscribe (l : Listener) {ch : Channel} (h : ch.tree? = none) :
    (s.subscribe ch l).2 = ⟨ch, (s.roster ch).next⟩ := by
  rw [s.roster_eq_listeners h, Roster.next_map]
  cases ch <;> rfl

/-- **A new handler is added to the handlers of its tree.** -/
theorem roster_attachHandler (scope : Scope) (event : String) (selector : Option Selector)
    (handler : EventHandler) (ch : Channel) :
    (s.attachHandler scope event selector handler).1.roster ch =
      if ch = .delegations scope.tree ∧ scope.tree < s.trees.size then
        (s.roster (.delegations scope.tree)).subscribe (.handler ⟨event, selector, scope.root, handler⟩)
      else s.roster ch := by
  have htree := s.roster_modifyTree scope.tree (fun t =>
    { t with delegations := t.delegations.subscribe ⟨event, selector, scope.root, handler⟩ }) ch
  rw [Roster.map_subscribe] at htree
  exact htree

/-- A destroyed record is heard by nobody. -/
theorem roster_destroy (id : RecordId) (ch : Channel) :
    (s.modifyRecord id Record.destroy).roster ch =
      if ch = .changes id ∨ ch = .requests id then (s.roster ch).clear else s.roster ch := by
  cases ch with
  | changes id' | requests id' =>
    simp only [roster, record_modifyRecord, Channel.changes.injEq, Channel.requests.injEq, reduceCtorEq,
      or_false, false_or]
    by_cases hid : id' = id
    · subst hid
      by_cases hlt : id'.number < s.records.size
      · simp [hlt, Record.destroy, Roster.map_clear]
      · simp only [hlt, s.record_of_size_le hlt, and_false, if_false, if_true]
        rfl
    · simp [hid]
  | _ => rfl

end Store

end Databind
