import Databind.Proofs.Notification
import Databind.Proofs.Painting

/-!
# `Proofs.Agreement` — an element and its field after an edit

An edit of an element is written back to a field, and comes back to the element only if somebody is told: the write
alters the field, or it is refused. Then the element shows what the record holds. If the value that is stored is the
one that was there, nobody is told, and the element keeps the text that was typed, whatever the record holds.

An event on its way up meets the handler of a binding once for each element that the binding's selector selects. One edit
after the other is written back then, each from the element as the edits before have left it. `settles_of_writeBack` says
what one of them does, `settles_of_writeBacks` what all of them come to.

## Main definitions

* `Record.Tells` — a write of one field is told of.
* `Store.edited` — a store with an edit in it, before anyone is told.
* `Store.Agrees` — an element shows what a field holds.
* `Store.Attends` — an edit at an element comes back to some elements.
* `Machine.Comes` — a dispatch comes to the handlers that are still waiting.
-/

namespace Databind

open Store

/-- The handler of a two-way binding, waiting at some elements. -/
def Binding.waitingAt (b : Binding) (root : Nat) (xs : List Nat) : List (EventHandler × Nat) :=
  xs.map fun x => ((b.delegation root).handler, x)

/-- **A write of one field is told of**: it alters the field, or it is refused. -/
def Record.Tells (r : Record) (name : String) (v : Value) : Prop :=
  r.alive = true ∧ ((r.batch [(name, v)]).changed.isEmpty = false ∨ (r.batch [(name, v)]).refused ≠ [])

namespace Record

variable {r : Record} {name : String} {v : Value}

/-- A write that alters its field is not refused, and names that field. -/
theorem batch_of_changed (h : (r.batch [(name, v)]).changed.isEmpty = false) :
    (r.batch [(name, v)]).changed = .single name ∧ (r.batch [(name, v)]).refused = [] := by
  have hstore : ∀ (b : Batch) (v : Value), b.changed = .empty → b.refused = [] → (b.store name v).changed.isEmpty = false →
      (b.store name v).changed = .single name ∧ (b.store name v).refused = [] := by
    intro b v hchanged hrefused hsome
    unfold Batch.store at hsome ⊢
    split at hsome
    · exact ⟨by rw [hchanged]; rfl, hrefused⟩
    · rw [hchanged] at hsome
      cases hsome
  simp only [batch, List.foldl_cons, List.foldl_nil, Batch.write] at h ⊢
  split at h
  · exact hstore _ v rfl rfl h
  · split at h
    · exact hstore _ _ rfl rfl h
    · cases h

/-- Without a validator a text that differs from the one that is stored is stored, and told of. -/
theorem tells_of_string (halive : r.alive = true) (hvalidator : r.validator = none) {stored typed : String}
    (hstored : r.fields.get name = .string stored) (hne : typed ≠ stored) : r.Tells name (.string typed) := by
  refine ⟨halive, .inl ?_⟩
  have hget : Dict.get? r.fields name = some (.string stored) := by
    unfold Fields.get at hstored
    cases hfound : Dict.get? r.fields name with
    | none => rw [hfound] at hstored; cases hstored
    | some v => rw [hfound] at hstored; exact congrArg some hstored
  have hdiffers : Value.strictEqual (.string stored) (.string typed) = false := by
    simp [Value.strictEqual, Ne.symm hne]
  simp [batch, Batch.write, hvalidator, Batch.store, Batch.start, Fields.store?, Value.isUndefined, hget, hdiffers,
    ChangeSet.isEmpty, ChangeSet.insert, ChangeSet.empty]

end Record

namespace Store

variable {s : Store} {tree : Nat}

/-- The store with an edit in it, before anyone is told. -/
def edited (s : Store) (event : String) (id : RecordId) (name : String) (v : Value) : Store :=
  (s.log (.writtenBack id name event v)).stored id [(name, v)]

/-- What binders show after a batch of writes is stored: what the change triggers if the batch alters fields, everything
they show of the record if it alters none but a write of it is refused, and nothing otherwise. -/
def told (s : Store) (id : RecordId) (b : Record.Batch) : List (Nat × Binding) :=
  if b.changed.isEmpty = false then
    (s.record id).changes.live.flatMap fun e => s.shownBy (.changed b.changed) e.listener
  else if b.refused = [] then []
  else (s.record id).requests.live.flatMap fun e => s.shownBy .render e.listener

/-- A record in which an edit is stored; its listeners are the same. -/
theorem record_edited {id : RecordId} (halive : (s.record id).alive = true) (event name : String) (v : Value) :
    (s.edited event id name v).record id = (s.record id).commit ((s.record id).batch [(name, v)]) :=
  record_stored (s := s.log (.writtenBack id name event v)) halive [(name, v)]

theorem trees_edited (s : Store) (event : String) (id : RecordId) (name : String) (v : Value) :
    (s.edited event id name v).trees = s.trees := by
  obtain ⟨j, hj⟩ := (s.log (.writtenBack id name event v)).validated_eq id ((s.record id).batch [(name, v)])
  unfold edited stored
  simp only
  change (((s.log (.writtenBack id name event v)).validated id ((s.record id).batch [(name, v)])).modifyRecord id
    (·.commit ((s.record id).batch [(name, v)]))).trees = _
  rw [hj]
  rfl

theorem arena_edited (s : Store) (event : String) (id : RecordId) (name : String) (v : Value) (tree : Nat) :
    (s.edited event id name v).arena tree = s.arena tree := by simp only [arena, Store.tree, trees_edited]

/-- Beginning or ending a notification or a dispatch shows nothing. -/
theorem shows_modifyRoster (s : Store) (tree : Nat) (ch : Channel) (f : {α : Type} → Roster α → Roster α) :
    Shows tree [] s (s.modifyRoster ch f) := by
  cases ch with
  | changes id | requests id =>
    refine ⟨⟨rfl, fun id' => ?_, fun id' => ?_, fun id' => ?_, rfl⟩, rfl⟩
    all_goals simp only [modifyRoster, Store.fields, record_modifyRecord]
    all_goals
      split
      · next h => rw [h.1]
      · rfl
  | delegations n =>
    exact ⟨.of_eq rfl rfl (Array.size_modify ..), s.arena_modifyTree n tree fun _ => rfl⟩
  | _ => exact ⟨.of_eq rfl rfl rfl, rfl⟩

/-! ## Elements and fields -/

/-- A tree with an element is there. -/
theorem lt_of_lt_size_arena (s : Store) {x : Nat} (hx : x < (s.arena tree).size) : tree < s.trees.size := by
  by_contra hout
  simp only [arena, s.tree_of_size_le hout] at hx
  exact Nat.not_lt_zero x hx

/-- The value as which the text in an element is written back to a field. -/
def typed (s : Store) (tree : Nat) (id : RecordId) (name : String) (x : Nat) : Value :=
  (Value.string ((s.arena tree).content x).value).coerce ((s.fields id).get name).kind false

/-- **An element shows what a field holds**, and nothing for a field that is absent. -/
def Agrees (s : Store) (tree : Nat) (id : RecordId) (name : String) (x : Nat) : Prop :=
  ((s.arena tree).content x).value = ((s.fields id).get name).displayOrEmpty

/-- A text that nobody is told of is the one that is stored, where nothing validates. -/
theorem agrees_of_not_tells {id : RecordId} {name stored : String} {x : Nat} (halive : (s.record id).alive = true)
    (hvalidator : (s.record id).validator = none) (hstored : (s.fields id).get name = .string stored)
    (hsilent : ¬(s.record id).Tells name (s.typed tree id name x)) : s.Agrees tree id name x := by
  have htyped : s.typed tree id name x = .string ((s.arena tree).content x).value := by
    simp only [typed, hstored, Value.kind, Value.coerce]
  rw [htyped] at hsilent
  unfold Agrees
  rw [hstored]
  by_contra hne
  exact hsilent (Record.tells_of_string halive hvalidator hstored hne)

/-- **An edit at an element comes back to some elements**: only binders listen to the record, and if the edit is told of,
the binding is the last of those that are shown then to paint the value of each of these elements. -/
structure Attends (s : Store) (tree : Nat) (event name : String) (n : Nat) (b : Binding) (x : Nat) (ys : List Nat) :
    Prop where
  own : ∀ e, e ∈ (s.record b.record).changes.live ∨ e ∈ (s.record b.record).requests.live → e.listener.binder?.isSome
  last : (s.record b.record).Tells name (s.typed tree b.record name x) → ∀ y ∈ ys,
    (s.edited event b.record name (s.typed tree b.record name x)).PaintsLast tree y (n, b)
      ((s.edited event b.record name (s.typed tree b.record name x)).arena tree)
      ((s.edited event b.record name (s.typed tree b.record name x)).told b.record
        ((s.record b.record).batch [(name, s.typed tree b.record name x)]))

/-- **Nothing comes of an edit**: the elements of the tree and what the record holds and takes are as before. -/
structure Rests (tree : Nat) (id : RecordId) (s s' : Store) : Prop where
  arena : s'.arena tree = s.arena tree
  fields : s'.fields id = s.fields id
  alive : (s'.record id).alive = (s.record id).alive
  validator : (s'.record id).validator = (s.record id).validator

namespace Rests

variable {s' s'' : Store} {id : RecordId} {name : String} {x : Nat}

theorem trans (h : s.Rests tree id s') (h' : s'.Rests tree id s'') : s.Rests tree id s'' :=
  ⟨h'.arena.trans h.arena, h'.fields.trans h.fields, h'.alive.trans h.alive, h'.validator.trans h.validator⟩

/-- Where no binding is shown, nothing comes of anything. -/
theorem of_shows (h : Shows tree [] s s') (id : RecordId) : s.Rests tree id s' :=
  ⟨h.arena, h.fields id, h.alive id, h.validator id⟩

/-- The same edits are told of. -/
theorem tells (h : s.Rests tree id s') (htells : (s.record id).Tells name (s.typed tree id name x)) :
    (s'.record id).Tells name (s'.typed tree id name x) := by
  have hfields : (s'.record id).fields = (s.record id).fields := h.fields
  unfold Record.Tells Record.batch Store.typed at htells ⊢
  rwa [h.arena, h.fields, h.alive, h.validator, hfields]

/-- The same elements show what the field holds. -/
theorem agrees (h : s.Rests tree id s') (hagrees : s.Agrees tree id name x) : s'.Agrees tree id name x := by
  unfold Agrees
  rwa [h.arena, h.fields]

end Rests

end Store

namespace Machine

variable {m m' : Machine} {base : List Frame} {turns : List Turn} {tree : Nat}

/-! ## What is shown until a task returns -/

/-- The store of a machine whose task ends at once. -/
theorem store_of_returns {task : Task} (hstack : m.stack = .task task :: base) (hreturns : m.Returns base turns m')
    (hends : (m.runTask base task).stack = base) : m'.store = (m.runTask base task).store := by
  cases hreturns with
  | done h =>
    have hlength := congrArg List.length (h.symm.trans hstack)
    simp at hlength
  | turn _ hturn hrest =>
    obtain ⟨-, rfl⟩ := step_of_task hstack hturn
    rw [(hrest.of_stack hends).2]

/-- A task goes on with what it leaves. -/
theorem returns_of_task {task : Task} (hstack : m.stack = .task task :: base) (hreturns : m.Returns base turns m') :
    ∃ rest, (m.runTask base task).Returns base rest m' := by
  cases hreturns with
  | done h =>
    have hlength := congrArg List.length (h.symm.trans hstack)
    simp at hlength
  | turn _ hturn hrest =>
    obtain ⟨-, rfl⟩ := step_of_task hstack hturn
    exact ⟨_, hrest⟩

/-- **A notification that only binders hear** shows what its listeners show, one after the other. -/
theorem shows_of_notification {ch : Channel} {pinned : List Nat} {signal : Signal} {waiting : List Listener}
    (hown : ∀ l ∈ waiting, l.binder?.isSome) (hsignal : signal.Repaints) (htree : tree < m.store.trees.size)
    (hstack : m.stack = .task (.notify ch pinned signal waiting) :: base) (hreturns : m.Returns base turns m') :
    Shows tree (waiting.flatMap (m.store.shownBy signal)) m.store m'.store := by
  induction waiting generalizing m turns with
  | nil =>
    rw [store_of_returns hstack hreturns rfl]
    exact m.store.shows_modifyRoster tree ch fun r => r.unpin pinned
  | cons l waiting ih =>
    obtain ⟨k, hk⟩ := Option.isSome_iff_exists.mp (hown l List.mem_cons_self)
    obtain ⟨rest, hrest⟩ := returns_of_task hstack hreturns
    have hhear := hear_of_binder? hk m.session signal
    have hstore : (m.runTask base (.notify ch pinned signal (l :: waiting))).store = Session.react m.store l signal := by
      simp only [runTask, hhear]
      rfl
    have hreact := shows_react (s := m.store) htree l hsignal
    rw [← hstore] at hreact
    have hlater := ih (fun l' hl' => hown l' (List.mem_cons_of_mem _ hl')) (hreact.trees ▸ htree)
      (by simp only [runTask, hhear]; rfl) hrest
    -- what the others show is decided by the registries, and the first listener left those alone
    rw [hreact.toAlike.shownBy] at hlater
    exact hreact.trans hlater

/-- The same from the beginning of the notification. -/
theorem shows_of_notify (s : Store) (ch : Channel) {signal : Signal}
    (hown : ∀ e ∈ (s.listeners ch).live, e.listener.binder?.isSome) (hsignal : signal.Repaints)
    (htree : tree < s.trees.size) (hstore : m.store = (s.notify ch signal).1)
    (hstack : m.stack = .task (s.notify ch signal).2 :: base) (hreturns : m.Returns base turns m') :
    Shows tree ((s.listeners ch).live.flatMap fun e => s.shownBy signal e.listener) s m'.store := by
  have hdrawn : Shows tree [] s m.store := by
    rw [hstore]
    exact s.shows_modifyRoster tree ch fun r => r.prune.pin ((s.listeners ch).live.map (·.id))
  have hown' : ∀ l ∈ (s.listeners ch).live.map (·.listener), l.binder?.isSome := by
    intro l hl
    obtain ⟨e, he, rfl⟩ := List.mem_map.mp hl
    exact hown e he
  have hheard := shows_of_notification hown' hsignal (hdrawn.trees ▸ htree) hstack hreturns
  rw [hdrawn.toAlike.shownBy, List.flatMap_map] at hheard
  exact hdrawn.trans hheard

/-- A request that a record be shown again is a notification of those who listen to requests. -/
theorem shows_of_request {id : RecordId} (hown : ∀ e ∈ (m.store.listeners (.requests id)).live, e.listener.binder?.isSome)
    (htree : tree < m.store.trees.size) (hstack : m.stack = .task (.request id) :: base)
    (hreturns : m.Returns base turns m') :
    Shows tree ((m.store.listeners (.requests id)).live.flatMap fun e => m.store.shownBy .render e.listener) m.store
      m'.store := by
  obtain ⟨rest, hrest⟩ := returns_of_task hstack hreturns
  exact shows_of_notify m.store (.requests id) hown Signal.repaints_render htree rfl rfl hrest

/-- **An edit that is stored is told of** to its end. -/
theorem shows_of_edit {s : Store} {event name : String} {id : RecordId} {v : Value} (halive : (s.record id).alive = true)
    (hown : ∀ e, e ∈ (s.record id).changes.live ∨ e ∈ (s.record id).requests.live → e.listener.binder?.isSome)
    (htree : tree < (s.edited event id name v).trees.size)
    (hstore : m.store = ((s.log (.writtenBack id name event v)).write id [(name, v)]).1)
    (hstack : m.stack = ((s.log (.writtenBack id name event v)).write id [(name, v)]).2.map .task ++ base)
    (hreturns : m.Returns base turns m') :
    Shows tree ((s.edited event id name v).told id ((s.record id).batch [(name, v)])) (s.edited event id name v)
      m'.store := by
  have hrecord := record_edited halive event name v
  have halive' : ((s.log (.writtenBack id name event v)).record id).alive = true := halive
  unfold told
  rw [hrecord]
  cases hchanged : ((s.record id).batch [(name, v)]).changed.isEmpty with
  | false =>
    -- the field has changed, and only those who listen to changes hear of it
    have hwrite : (s.log (.writtenBack id name event v)).write id [(name, v)] =
        (((s.edited event id name v).notify (.changes id) (.changed ((s.record id).batch [(name, v)]).changed)).1,
          ((s.edited event id name v).notify (.changes id) (.changed ((s.record id).batch [(name, v)]).changed)).2 ::
            requestsOf id ((s.record id).batch [(name, v)])) := write_of_changed halive' hchanged
    have hnone : requestsOf id ((s.record id).batch [(name, v)]) = [] := by
      unfold requestsOf
      rw [(Record.batch_of_changed hchanged).2]
      rfl
    rw [hwrite] at hstore hstack
    rw [hnone] at hstack
    have hlive : ∀ e ∈ ((s.edited event id name v).listeners (.changes id)).live, e.listener.binder?.isSome := by
      intro e he
      rw [listeners, hrecord] at he
      exact hown e (.inl he)
    have hshows := shows_of_notify (s.edited event id name v) (.changes id) hlive (Signal.repaints_changed _) htree hstore
      hstack hreturns
    rwa [listeners, hrecord] at hshows
  | true =>
    have hwrite : (s.log (.writtenBack id name event v)).write id [(name, v)] =
        (s.edited event id name v, requestsOf id ((s.record id).batch [(name, v)])) :=
      write_of_unchanged halive' hchanged
    rw [hwrite] at hstore hstack
    replace hstore : m.store = s.edited event id name v := hstore
    rw [if_neg (by simp)]
    unfold requestsOf at hstack
    by_cases hrefused : ((s.record id).batch [(name, v)]).refused = []
    · -- the field has this value already, so nobody hears of it
      rw [if_pos hrefused]
      rw [hrefused] at hstack
      rw [(hreturns.of_stack hstack).2, hstore]
      exact .refl tree _
    · -- a value that is refused makes the binders show the record again
      rw [if_neg hrefused]
      rw [if_neg (by simpa using hrefused)] at hstack
      rw [← hstore] at htree
      have hlive : ∀ e ∈ (m.store.listeners (.requests id)).live, e.listener.binder?.isSome := by
        intro e he
        rw [hstore, listeners, hrecord] at he
        exact hown e (.inr he)
      have hshows := shows_of_request hlive htree hstack hreturns
      rwa [hstore, listeners, hrecord] at hshows

/-! ## An edit from its event to its end -/

section Edit

variable {event : String} {pinned : List Nat} {root x n : Nat} {b : Binding} {name : String}
  {waiting : List (EventHandler × Nat)}

/-- **A handler that writes an edit back**, and what is left to do then. -/
theorem store_of_writeBack (m : Machine) (base : List Frame) (tree : Nat) (event : String) (pinned : List Nat)
    (root x : Nat) (waiting : List (EventHandler × Nat)) (hfield : b.accessor = .field name) (htarget : b.target = .value)
    (hnegate : b.negate = false) {v : Value} (hv : v = m.store.typed tree b.record name x) :
    (m.runTask base (.dispatch tree pinned event (((b.delegation root).handler, x) :: waiting))).store =
        ((m.store.log (.writtenBack b.record name event v)).write b.record [(name, v)]).1 ∧
      (m.runTask base (.dispatch tree pinned event (((b.delegation root).handler, x) :: waiting))).stack =
        ((m.store.log (.writtenBack b.record name event v)).write b.record [(name, v)]).2.map .task ++
          ([.task (.dispatch tree pinned event waiting)] ++ base) := by
  have hwrite : m.store.writeBack tree event ⟨b.record, name, .value, false⟩ x =
      (m.store.log (.writtenBack b.record name event v)).write b.record [(name, v)] := by
    rw [hv]
    rfl
  rw [← hwrite]
  simp only [Binding.delegation, hfield, Accessor.field?, Option.getD_some, htarget, hnegate]
  exact ⟨rfl, rfl⟩

/-- **What is shown and what is stored when an edit has been written back.** -/
theorem shows_of_writeBack (htree : tree < m.store.trees.size) (hfield : b.accessor = .field name)
    (htarget : b.target = .value) (hnegate : b.negate = false)
    (hown : ∀ e, e ∈ (m.store.record b.record).changes.live ∨ e ∈ (m.store.record b.record).requests.live →
      e.listener.binder?.isSome) {v : Value} (hv : v = m.store.typed tree b.record name x)
    (hreturns : (m.runTask base (.dispatch tree pinned event (((b.delegation root).handler, x) :: waiting))).Returns
      (.task (.dispatch tree pinned event waiting) :: base) turns m') :
    if (m.store.record b.record).alive = true then
      Shows tree ((m.store.edited event b.record name v).told b.record ((m.store.record b.record).batch [(name, v)]))
        (m.store.edited event b.record name v) m'.store
    else Shows tree [] m.store m'.store := by
  obtain ⟨hstore, hleft⟩ := m.store_of_writeBack base tree event pinned root x waiting hfield htarget hnegate hv
  cases halive : (m.store.record b.record).alive with
  | true =>
    have hthere : tree < (m.store.edited event b.record name v).trees.size := by
      rw [trees_edited]
      exact htree
    exact shows_of_edit halive hown hthere hstore hleft hreturns
  | false =>
    have hdead : ((m.store.log (.writtenBack b.record name event v)).record b.record).alive = false := halive
    rw [write_of_dead hdead] at hstore hleft
    rw [(hreturns.of_stack hleft).2, hstore]
    exact (m.store.shows_log tree _).trans (shows_log _ tree _)

/-- **One edit**: if it is told of, the record takes it, and elements whose value the binding is the last to paint show
what the record holds; otherwise nothing comes of it. -/
theorem settles_of_writeBack {ys : List Nat} (hx : x ∈ ys) (hys : ∀ y ∈ ys, y < (m.store.arena tree).size)
    (hfield : b.accessor = .field name) (htarget : b.target = .value) (hnegate : b.negate = false)
    (hattends : m.store.Attends tree event name n b x ys)
    (hreturns : (m.runTask base (.dispatch tree pinned event (((b.delegation root).handler, x) :: waiting))).Returns
      (.task (.dispatch tree pinned event waiting) :: base) turns m') :
    let r := m.store.record b.record
    let v := m.store.typed tree b.record name x
    (m'.store.arena tree).size = (m.store.arena tree).size ∧
      (r.Tells name v →
        m'.store.fields b.record = (r.batch [(name, v)]).fields ∧ ∀ y ∈ ys, m'.store.Agrees tree b.record name y) ∧
      (¬r.Tells name v → m.store.Rests tree b.record m'.store) := by
  intro r v
  have hall := shows_of_writeBack (m.store.lt_of_lt_size_arena (hys x hx)) hfield htarget hnegate hattends.own rfl hreturns
  refine ⟨?_, fun htells => ?_, fun hsilent => ?_⟩
  · split at hall
    · rw [hall.arena, size_shownAll, arena_edited]
    · rw [hall.arena, List.foldl_nil]
  · rw [if_pos htells.1] at hall
    have hfields := hall.fields b.record
    refine ⟨hfields.trans (congrArg Record.fields (record_edited htells.1 event name v)), fun y hy => ?_⟩
    have hshows := shows_of_paintsLast (hattends.last htells y hy) (by rw [arena_edited]; exact hys y hy)
    rw [← hall.arena] at hshows
    simp only [htarget] at hshows
    refine hshows.1.trans ?_
    rw [hfields]
    simp only [Binding.value, hnegate, hfield, Accessor.evaluate]
    rfl
  · split at hall
    · next halive =>
      have hchanged : (r.batch [(name, v)]).changed.isEmpty = true := by
        by_contra hne
        exact hsilent ⟨halive, .inl (Bool.not_eq_true _ ▸ hne)⟩
      have hrefused : (r.batch [(name, v)]).refused = [] := by
        by_contra hne
        exact hsilent ⟨halive, .inr hne⟩
      have hnone : (m.store.edited event b.record name v).told b.record (r.batch [(name, v)]) = [] := by
        simp [told, hchanged, hrefused]
      have hrecord := record_edited halive event name v
      have hrests : m.store.Rests tree b.record (m.store.edited event b.record name v) :=
        ⟨m.store.arena_edited event b.record name v tree,
          (congrArg Record.fields hrecord).trans (Record.fields_batch hchanged), by rw [hrecord]; rfl, by rw [hrecord]; rfl⟩
      rw [hnone] at hall
      exact hrests.trans (.of_shows hall b.record)
    · exact .of_shows hall b.record

/-! ## All handlers that an event meets -/

/-- **A dispatch comes to the handlers that are still waiting** after it has invoked some of them. -/
inductive Comes (tree : Nat) (pinned : List Nat) (event : String) (base : List Frame) :
    Machine → List (EventHandler × Nat) → Machine → List (EventHandler × Nat) → Prop
  | here (a : Machine) (waiting : List (EventHandler × Nat)) : Comes tree pinned event base a waiting a waiting
  | next {a a₁ a₂ : Machine} {met : EventHandler × Nat} {waiting later : List (EventHandler × Nat)} {turns : List Turn}
    (hfirst : (a.runTask base (.dispatch tree pinned event (met :: waiting))).Returns
      (.task (.dispatch tree pinned event waiting) :: base) turns a₁)
    (hlater : Comes tree pinned event base a₁ waiting a₂ later) : Comes tree pinned event base a (met :: waiting) a₂ later

/-- A dispatch with one handler left comes to that one only. -/
theorem Comes.of_singleton {a a₁ : Machine} {met met' : EventHandler × Nat} {later : List (EventHandler × Nat)}
    (h : Comes tree pinned event base a [met] a₁ (met' :: later)) : a₁ = a ∧ met' = met := by
  cases h with
  | here => exact ⟨rfl, rfl⟩
  | next _ hlater => cases hlater

/-- With one handler left, it is enough that its edit comes back. -/
theorem attends_of_singleton {ys : List Nat} (h : m.store.Attends tree event name n b x ys) (m₁ : Machine) (x₁ : Nat)
    (later : List (EventHandler × Nat)) (hcomes : Comes tree pinned event base m (b.waitingAt root [x]) m₁
      (((b.delegation root).handler, x₁) :: later)) : m₁.store.Attends tree event name n b x₁ ys := by
  obtain ⟨rfl, heq⟩ := hcomes.of_singleton
  cases heq
  exact h

/-- **All edits that an event writes back.** Either none of them is told of, and nothing comes of them, or the record
holds what the last one that was told of left there, and all elements show that. -/
theorem settles_of_writeBacks {xs ys : List Nat} (hxs : xs ⊆ ys) (hys : ∀ y ∈ ys, y < (m.store.arena tree).size)
    (hfield : b.accessor = .field name) (htarget : b.target = .value) (hnegate : b.negate = false)
    (hattends : ∀ m₁ x later, Comes tree pinned event base m (b.waitingAt root xs) m₁
      (((b.delegation root).handler, x) :: later) → m₁.store.Attends tree event name n b x ys)
    (hstack : m.stack = .task (.dispatch tree pinned event (b.waitingAt root xs)) :: base)
    (hreturns : m.Returns base turns m') :
    ((∀ x ∈ xs, ¬(m.store.record b.record).Tells name (m.store.typed tree b.record name x)) ∧
        m.store.Rests tree b.record m'.store) ∨
      ((∃ m₁ x later, Comes tree pinned event base m (b.waitingAt root xs) m₁
          (((b.delegation root).handler, x) :: later) ∧
          (m₁.store.record b.record).Tells name (m₁.store.typed tree b.record name x) ∧
          m'.store.fields b.record =
            ((m₁.store.record b.record).batch [(name, m₁.store.typed tree b.record name x)]).fields) ∧
        ∀ y ∈ ys, m'.store.Agrees tree b.record name y) := by
  induction xs generalizing m turns with
  | nil =>
    refine .inl ⟨fun x hx => absurd hx List.not_mem_nil, ?_⟩
    rw [store_of_returns hstack hreturns rfl]
    exact .of_shows (m.store.shows_modifyRoster tree (.delegations tree) fun r => r.unpin pinned) b.record
  | cons x rest ih =>
    obtain ⟨later, hlater⟩ := returns_of_task hstack hreturns
    have hleft := (m.store_of_writeBack base tree event pinned root x (b.waitingAt root rest) hfield htarget hnegate rfl).2
    obtain ⟨before, behind, m₂, -, hbefore, hbehind⟩ := hlater.split hleft
    obtain ⟨hsize, htold, huntold⟩ := settles_of_writeBack (hxs List.mem_cons_self) hys hfield htarget hnegate
      (hattends m x _ (.here m _)) hbefore
    have hothers := ih (fun y hy => hxs (List.mem_cons_of_mem _ hy)) (fun y hy => hsize ▸ hys y hy)
      (fun m₁ x₁ later hcomes => hattends m₁ x₁ later (.next hbefore hcomes)) hbefore.stack hbehind
    obtain ⟨hnone, hrests⟩ | ⟨⟨m₁, x₁, later, hcomes, htells, hfields⟩, hagrees⟩ := hothers
    · by_cases htells : (m.store.record b.record).Tells name (m.store.typed tree b.record name x)
      · -- nobody is told of the other edits, so what came of this one stays
        obtain ⟨hfields, hagrees⟩ := htold htells
        exact .inr ⟨⟨m, x, _, .here m _, htells, hrests.fields.trans hfields⟩, fun y hy => hrests.agrees (hagrees y hy)⟩
      · have hrests₁ := huntold htells
        refine .inl ⟨fun y hy => ?_, hrests₁.trans hrests⟩
        obtain rfl | hy := List.mem_cons.mp hy
        · exact htells
        · exact fun htells' => hnone y hy (hrests₁.tells htells')
    · exact .inr ⟨⟨m₁, x₁, later, .next hbefore hcomes, htells, hfields⟩, hagrees⟩

/-- **Texts that are typed over a text** are shown as they are stored, at every element that the event passes, if the
record lives and has no validator. -/
theorem agrees_of_writeBacks {xs : List Nat} (hxs : ∀ x ∈ xs, x < (m.store.arena tree).size)
    (hfield : b.accessor = .field name) (htarget : b.target = .value) (hnegate : b.negate = false)
    (hattends : ∀ m₁ x later, Comes tree pinned event base m (b.waitingAt root xs) m₁
      (((b.delegation root).handler, x) :: later) → m₁.store.Attends tree event name n b x xs)
    (hstack : m.stack = .task (.dispatch tree pinned event (b.waitingAt root xs)) :: base)
    (hreturns : m.Returns base turns m')
    (halive : (m.store.record b.record).alive = true) (hvalidator : (m.store.record b.record).validator = none)
    {stored : String} (hstored : (m.store.fields b.record).get name = .string stored) :
    ∀ x ∈ xs, m'.store.Agrees tree b.record name x := by
  intro x hx
  obtain ⟨hnone, hrests⟩ | ⟨-, hagrees⟩ :=
    settles_of_writeBacks (List.Subset.refl xs) hxs hfield htarget hnegate hattends hstack hreturns
  · exact hrests.agrees (agrees_of_not_tells halive hvalidator hstored (hnone x hx))
  · exact hagrees x hx

/-- **An element and its field after an edit.** A user types a text into an element; the last handler that the event
meets is that of a two-way binding of a field, shown as it is on the value of elements. Only binders listen to the
record, and if the write is told of, the binding is the last to paint the value of the element. The dispatch returns.
If the write alters the field or is refused, the element then shows what the record holds, and nothing for a field that
is absent. Otherwise the record is as it was, and the element keeps the text that was typed. A text that is typed over
a text is always shown as it is stored, if the record lives and has no validator. -/
theorem value_of_writeBack (hstack : m.stack = .task (.dispatch tree pinned event [((b.delegation root).handler, x)]) :: base)
    (hx : x < (m.store.arena tree).size) (hfield : b.accessor = .field name) (htarget : b.target = .value)
    (hnegate : b.negate = false)
    (hown : ∀ e, e ∈ (m.store.record b.record).changes.live ∨ e ∈ (m.store.record b.record).requests.live →
      e.listener.binder?.isSome) :
    let r := m.store.record b.record
    let typed := ((m.store.arena tree).content x).value
    let v := (Value.string typed).coerce (r.fields.get name).kind false
    let s := m.store.edited event b.record name v
    (r.Tells name v → s.PaintsLast tree x (n, b) (s.arena tree) (s.told b.record (r.batch [(name, v)]))) →
    (∃ turns m', m.Returns base turns m') ∧ ∀ turns m', m.Returns base turns m' →
      let value := ((m'.store.arena tree).content x).value
      let shown := ((m'.store.fields b.record).get name).displayOrEmpty
      (r.Tells name v → m'.store.fields b.record = (r.batch [(name, v)]).fields ∧ value = shown) ∧
        (¬r.Tells name v → m'.store.fields b.record = r.fields ∧ value = typed) ∧
        (∀ stored, r.alive = true → r.validator = none → r.fields.get name = .string stored → value = shown) := by
  intro r typed v s hlast
  have hsize : ∀ y ∈ [x], y < (m.store.arena tree).size := fun y hy => List.mem_singleton.mp hy ▸ hx
  have hattends : m.store.Attends tree event name n b x [x] := by
    refine ⟨hown, fun htells y hy => ?_⟩
    obtain rfl := List.mem_singleton.mp hy
    exact hlast htells
  refine ⟨exists_returns m (List.singleton_append ▸ hstack), fun turns m' hreturns => ?_⟩
  intro value shown
  have htyped : ∀ stored, r.alive = true → r.validator = none → r.fields.get name = .string stored → value = shown :=
    fun stored halive hvalidator hstored =>
      agrees_of_writeBacks hsize hfield htarget hnegate (attends_of_singleton hattends) hstack hreturns halive hvalidator
        hstored x List.mem_cons_self
  obtain ⟨hnone, hrests⟩ | ⟨⟨m₁, x', later, hcomes, htells, hfields⟩, hagrees⟩ :=
    settles_of_writeBacks (List.Subset.refl [x]) hsize hfield htarget hnegate (attends_of_singleton hattends) hstack
      hreturns
  · have hsilent : ¬r.Tells name v := hnone x List.mem_cons_self
    have hvalue : value = typed := congrArg (fun arena => (arena.content x).value) hrests.arena
    exact ⟨fun htells => absurd htells hsilent, fun _ => ⟨hrests.fields, hvalue⟩, htyped⟩
  · obtain ⟨rfl, heq⟩ := hcomes.of_singleton
    cases heq
    exact ⟨fun _ => ⟨hfields, hagrees x List.mem_cons_self⟩, fun hsilent => absurd htells hsilent, htyped⟩

/-- The host dispatches an event at the root of a tree. -/
def dispatched (event : String) (m : Machine) : Machine :=
  .start m.session (.act (.tree (.dispatch "tree" event (.first "tree" ""))))

/-- An event at an element without a parent meets the handlers there, and no others. -/
theorem stack_of_dispatch (event : String) {node : Nat} (hscope : m.session.workspace.scope? "tree" = .ok ⟨tree, node⟩)
    (hroot : (m.store.arena tree).parent? node = none) :
    ∃ pinned count, (m.dispatched event).stack =
      .task (.dispatch tree pinned event (((m.store.tree tree).delegations.live.filter fun e =>
        e.listener.event = event ∧ e.listener.meets (m.store.arena tree) node).map fun e => (e.listener.handler, node))) ::
          [.task (.reply (.count count))] := by
  have hnobody : (m.store.tree tree).arena.ancestors node = [] := by
    unfold Arena.ancestors
    rw [show (m.store.tree tree).arena.parent? node = none from hroot]
  have hmet : handlersMet (m.store.tree tree) event node =
      ((m.store.tree tree).delegations.live.filter fun e =>
        e.listener.event = event ∧ e.listener.meets (m.store.arena tree) node).map (·, node) := by
    unfold handlersMet
    rw [hnobody]
    exact List.append_nil _
  have hselect : ∀ scope, m.session.workspace.store.select scope "" = (m.session.workspace.store, [scope.root]) :=
    fun _ => if_pos rfl
  refine ⟨(handlersMet (m.store.tree tree) event node).map (·.1.id), (handlersMet (m.store.tree tree) event node).length, ?_⟩
  simp only [dispatched, start, Session.perform, Action.perform, TreeCommand.perform, Workspace.withElement, hscope, hselect,
    Workspace.withFound, fire, drawEvent, List.map_cons, List.map_nil]
  have hmapped : (handlersMet (m.store.tree tree) event node).map (fun x => (x.1.listener.handler, x.2)) =
      ((m.store.tree tree).delegations.live.filter fun e =>
        e.listener.event = event ∧ e.listener.meets (m.store.arena tree) node).map fun e => (e.listener.handler, node) := by
    rw [hmet, List.map_map]
    rfl
  rw [← hmapped]
  rfl

end Edit

/-- A field with a validator that trims texts, shown on the value of the root, and a text that a user types there. -/
def trimming (typed : String) : List Turn :=
  [.command (.act (.tree (.make "tree" (.node (.ofTag "input") [])))), .step,
    .command (.act (.record (.make "record" [("a", .string "x")]))), .step,
    .command (.act (.record (.install "record" (Rule.trim.validator none)))), .step,
    .command (.act (.binder (.make "binder" "tree" (.given none none none)))), .step,
    .command (.act (.binder (.bind "binder" "record" (.field "a") ⟨"", "value"⟩ .defaultEvent true))), .step,
    .command (.act (.tree (.change (.first "tree" "") .value (.string typed)))), .step]

/-- The binding of that field. -/
def trimmed : Binding :=
  { record := ⟨1⟩
    key := ⟨"", "value"⟩
    accessor := .field "a"
    negate := false
    triggers := some ["a"]
    event := some "change"
    guard := some ⟨.delegations 0, 0⟩ }

/-- The dispatch of the event that writes back, whatever was typed: only the binder listens to the record. -/
theorem dispatched_trimming (typed : String) :
    ∃ m pinned base, initial.walk? (trimming typed) = some m ∧
      (m.dispatched "change").stack = .task (.dispatch 0 pinned "change" [((trimmed.delegation 0).handler, 0)]) :: base ∧
      (m.dispatched "change").store.trees.size = 1 ∧ ((m.dispatched "change").store.arena 0).size = 1 ∧
      (((m.dispatched "change").store.arena 0).content 0).value = typed ∧
      ((m.dispatched "change").store.record ⟨1⟩).alive = true ∧
      (∀ e, e ∈ ((m.dispatched "change").store.record ⟨1⟩).changes.live ∨
        e ∈ ((m.dispatched "change").store.record ⟨1⟩).requests.live → e.listener.binder?.isSome) ∧
      .string typed = (Value.string (((m.dispatched "change").store.arena 0).content 0).value).coerce
        (((m.dispatched "change").store.fields ⟨1⟩).get "a").kind false := by
  have hrun : (initial.walk? (trimming typed)).map (fun m =>
      (m.session.workspace.scope? "tree", (m.store.arena 0).parent? 0,
        ((m.store.tree 0).delegations.live.filter fun e =>
          e.listener.event = "change" ∧ e.listener.meets (m.store.arena 0) 0).map fun e => (e.listener.handler, 0))) =
      some (.ok ⟨0, 0⟩, none, [((trimmed.delegation 0).handler, 0)]) := by rfl
  have hrun' : (initial.walk? (trimming typed)).map (fun m =>
      let s := (m.dispatched "change").store
      (s.trees.size, (s.arena 0).size, ((s.arena 0).content 0).value, (s.record ⟨1⟩).alive,
        ((s.record ⟨1⟩).changes.live ++ (s.record ⟨1⟩).requests.live).all (·.listener.binder?.isSome),
        (s.fields ⟨1⟩).get "a")) = some (1, 1, typed, true, true, .string "x") := by rfl
  obtain ⟨m, h, heq⟩ := Option.map_eq_some_iff.mp hrun
  rw [h] at hrun'
  simp only [Prod.mk.injEq, Option.map_some, Option.some.injEq] at heq hrun'
  obtain ⟨hscope, hroot, hmet⟩ := heq
  obtain ⟨htrees, hsize, htyped, halive, hown, hstored⟩ := hrun'
  obtain ⟨pinned, count, hstack⟩ := stack_of_dispatch "change" hscope hroot
  rw [hmet] at hstack
  refine ⟨m, pinned, _, h, hstack, htrees, hsize, htyped, halive, fun e he => ?_, ?_⟩
  · exact List.all_eq_true.mp hown e (List.mem_append.mpr he)
  · rw [htyped, hstored]
    rfl

/-- A text that is trimmed before it is stored comes back to the element trimmed. -/
theorem value_of_writeBack_trimmed :
    ∃ m pinned base turns m', initial.walk? (trimming " y ") = some m ∧
      (m.dispatched "change").stack = .task (.dispatch 0 pinned "change" [((trimmed.delegation 0).handler, 0)]) :: base ∧
      (((m.dispatched "change").store.arena 0).content 0).value = " y " ∧ (m.dispatched "change").Returns base turns m' ∧
      (m'.store.fields ⟨1⟩).get "a" = .string "y" ∧ ((m'.store.arena 0).content 0).value = "y" := by
  have hrun : (initial.walk? (trimming " y ")).map (fun m =>
      let s := (m.dispatched "change").store
      let b := (s.record ⟨1⟩).batch [("a", .string " y ")]
      let s := s.edited "change" ⟨1⟩ "a" (.string " y ")
      (b.changed.isEmpty, b.fields.get "a", s.told ⟨1⟩ b, s.elementsOf 0 (s.arena 0) (0, trimmed))) =
      some (false, .string "y", [(0, trimmed)], [0]) := by rfl
  obtain ⟨m, pinned, base, h, hstack, -, hsize, htyped, halive, hown, hv⟩ := dispatched_trimming " y "
  rw [h] at hrun
  simp only [Prod.mk.injEq, Option.map_some, Option.some.injEq] at hrun
  obtain ⟨hchanged, hget, htold, helements⟩ := hrun
  have hlast : ∀ v, .string " y " = v → ((m.dispatched "change").store.record ⟨1⟩).Tells "a" v →
      let s := (m.dispatched "change").store.edited "change" ⟨1⟩ "a" v
      s.PaintsLast 0 0 (0, trimmed) (s.arena 0)
        (s.told ⟨1⟩ (((m.dispatched "change").store.record ⟨1⟩).batch [("a", v)])) := by
    rintro _ rfl - s
    rw [htold]
    exact .inl ⟨rfl, helements ▸ List.mem_cons_self, trivial⟩
  obtain ⟨⟨turns, m', hreturns⟩, hall⟩ := value_of_writeBack (b := trimmed) (n := 0) hstack (hsize ▸ Nat.zero_lt_one) rfl
    rfl rfl hown (hlast _ hv)
  obtain ⟨hfields, hvalue⟩ := (hall turns m' hreturns).1 ⟨halive, .inl (hv ▸ hchanged)⟩
  have hget' : (m'.store.fields trimmed.record).get "a" = .string "y" := by
    rw [hfields, ← hget]
    exact congrArg (fun v => (((m.dispatched "change").store.record ⟨1⟩).batch [("a", v)]).fields.get "a") hv.symm
  refine ⟨m, pinned, base, turns, m', h, hstack, htyped, hreturns, hget', hvalue.trans ?_⟩
  rw [hget']
  rfl

/-- **A text that is trimmed to what is stored stays as it was typed**: nobody is told, and the element does not show
what its field holds. -/
theorem value_ne_stored_of_trimmed :
    ∃ m pinned base turns m', initial.walk? (trimming " x ") = some m ∧
      (m.dispatched "change").stack = .task (.dispatch 0 pinned "change" [((trimmed.delegation 0).handler, 0)]) :: base ∧
      (((m.dispatched "change").store.arena 0).content 0).value = " x " ∧ (m.dispatched "change").Returns base turns m' ∧
      (m'.store.fields ⟨1⟩).get "a" = .string "x" ∧ ((m'.store.arena 0).content 0).value = " x " := by
  have hrun : (initial.walk? (trimming " x ")).map (fun m =>
      let s := (m.dispatched "change").store
      let b := (s.record ⟨1⟩).batch [("a", .string " x ")]
      (b.changed.isEmpty, b.refused, (s.fields ⟨1⟩).get "a")) = some (true, [], .string "x") := by rfl
  obtain ⟨m, pinned, base, h, hstack, -, hsize, htyped, -, hown, hv⟩ := dispatched_trimming " x "
  rw [h] at hrun
  simp only [Prod.mk.injEq, Option.map_some, Option.some.injEq] at hrun
  obtain ⟨hchanged, hrefused, hget⟩ := hrun
  have hsilent : ∀ v, .string " x " = v → ¬((m.dispatched "change").store.record ⟨1⟩).Tells "a" v := by
    rintro _ rfl ⟨-, hsome | hsome⟩
    · exact absurd (hsome.symm.trans hchanged) Bool.false_ne_true
    · exact hsome hrefused
  obtain ⟨turns, m', hreturns⟩ := exists_returns (m.dispatched "change") (List.singleton_append ▸ hstack)
  have hsize₀ : ∀ y ∈ [0], y < ((m.dispatched "change").store.arena 0).size := by
    intro y hy
    rw [List.mem_singleton.mp hy, hsize]
    exact Nat.zero_lt_one
  have hattends : (m.dispatched "change").store.Attends 0 "change" "a" 0 trimmed 0 [0] :=
    ⟨hown, fun htells => absurd htells (hsilent _ hv)⟩
  obtain ⟨-, hrests⟩ | ⟨⟨m₁, x, later, hcomes, htells, -⟩, -⟩ :=
    settles_of_writeBacks (List.Subset.refl [0]) hsize₀ rfl rfl rfl (attends_of_singleton hattends) hstack hreturns
  · refine ⟨m, pinned, base, turns, m', h, hstack, htyped, hreturns, ?_, ?_⟩
    · exact (congrArg (·.get "a") hrests.fields).trans hget
    · exact (congrArg (fun arena => (arena.content 0).value) hrests.arena).trans htyped
  · obtain ⟨rfl, heq⟩ := hcomes.of_singleton
    cases heq
    exact absurd htells (hsilent _ hv)

end Machine

end Databind
