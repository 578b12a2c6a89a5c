import Databind.Proofs.Notification

/-!
# `Proofs.Announcement` — every change of a record is announced

A batch of writes stores first and notifies afterwards, once for the whole batch. The notifications of changed fields
that a run emits are read off the stack, not off the writes: a turn emits those that are in progress after it and were
not before (`Machine.begun`). The result is `Machine.announced_of_walk`: along every run the version of a record counts
its notifications, no notification is empty, and a turn that alters the fields of a record is a batch of writes that has
begun exactly one notification with the names of all altered fields, which is over before the batch is.

## Main definitions

* `Machine.begun`, `Machine.emitted` — the notifications of changed fields that a turn, or a run, emits.
* `Machine.Announces` — a batch of writes emits its notification.
-/

namespace Databind

open Store

/-! ## Notifications of changed fields -/

/-- The record and the names of a notification of changed fields. -/
def Task.change? : Task → Option (RecordId × ChangeSet)
  | .notify (.changes id) _ (.changed set) _ => some (id, set)
  | _ => none

/-- The record and the names of a notification of changed fields, on a level of the stack. -/
def Frame.change? : Frame → Option (RecordId × ChangeSet)
  | .task t => t.change?
  | .script _ => none

namespace Machine

/-- The notifications of changed fields that are in progress, the innermost first. -/
def changing (m : Machine) : List (RecordId × ChangeSet) := m.stack.filterMap Frame.change?

/-- **The notifications of changed fields that a turn emits**: those in progress after it in front of those that were in
progress before. -/
def begun (m m' : Machine) : List (RecordId × ChangeSet) := m'.changing.take (m'.changing.length - m.changing.length)

/-- **The notifications of changed fields that a run emits**, in order. -/
def emitted (m : Machine) : List Turn → List (RecordId × ChangeSet)
  | [] => []
  | t :: rest => (m.turn? t).elim [] fun m' => m.begun m' ++ m'.emitted rest

variable {m m' : Machine}

theorem begun_of_changing (h : m'.changing.length ≤ m.changing.length) : m.begun m' = [] := by
  rw [begun, Nat.sub_eq_zero_of_le h, List.take_zero]

theorem begun_of_same (h : m'.changing = m.changing) : m.begun m' = [] := begun_of_changing (Nat.le_of_eq (by rw [h]))

theorem begun_of_append {new : List (RecordId × ChangeSet)} (h : m'.changing = new ++ m.changing) : m.begun m' = new := by
  rw [begun, h, List.length_append, Nat.add_sub_cancel, List.take_left]

end Machine

/-! ## Commands that emit none -/

/-- Something carried out that leaves no notification of changed fields. -/
def Workspace.Mute (done : Workspace × List Task) : Prop := done.2.filterMap Task.change? = []

namespace Workspace

variable {w : Workspace}

theorem mute_found {α : Type} {found : Except Outcome α} {go : α → Workspace × List Task} (h : ∀ a, Mute (go a)) :
    Mute (w.withFound found go) := by
  cases found with
  | ok a => exact h a
  | error outcome => rfl

theorem mute_built {α : Type} {built : Except BindError α} {go : α → Workspace × List Task} (h : ∀ a, Mute (go a)) :
    Mute (w.withBuilt built go) := by
  cases built with
  | ok a => exact h a
  | error e => rfl

theorem mute_element {ref : ElementRef} {go : Workspace → Nat → Nat → Workspace × List Task}
    (h : ∀ w tree x, Mute (go w tree x)) : Mute (w.withElement ref go) := by
  cases ref with
  | saved name =>
    unfold withElement
    simp only
    split
    · exact h _ _ _
    · rfl
  | first tree selector =>
    refine mute_found fun scope => ?_
    split
    · exact h _ _ _
    · rfl

end Workspace

open Workspace

variable {w : Workspace}

theorem CollectionCommand.mute (command : CollectionCommand) : Mute (command.perform w) := by
  cases command with
  | make as members => exact mute_found fun ids => rfl
  | listMembers collection | size collection | atIndex collection index | find collection key =>
    exact mute_found fun c => rfl
  | resolve collection key => exact mute_found fun c => mute_built fun id => rfl
  | add collection record => exact mute_found fun c => mute_found fun id => rfl
  | remove collection member =>
    refine mute_found fun c => mute_found fun id => ?_
    have hnone : (w.store.removeMember c id).2.filterMap Task.change? = [] := by
      unfold removeMember
      split <;> rfl
    exact hnone
  | reset collection members => exact mute_found fun c => mute_found fun ids => rfl
  | reorder collection order => exact mute_found fun c => rfl
  | expand collection map defaultEvent => exact mute_found fun c => mute_built fun map => mute_built fun plan => rfl

theorem BinderCommand.mute (command : BinderCommand) : Mute (command.perform w) := by
  cases command with
  | make as tree config => exact mute_found fun scope => mute_built fun config => rfl
  | clone as binder => exact mute_found fun n => rfl
  | bind binder record property key twoWay autoRender =>
    exact mute_found fun n => mute_found fun id => mute_built fun property => rfl
  | unbind binder record key => exact mute_found fun n => mute_found fun id => rfl
  | unbindAll binder record | render binder record => exact mute_found fun n => mute_found fun id => rfl
  | attach binder source map autoRender => exact mute_found fun n => mute_found fun source => mute_built fun map => rfl
  | detach binder | state binder | settings binder | query binder selector => exact mute_found fun n => rfl
  | observing binder record => exact mute_found fun n => mute_found fun id => rfl

theorem ViewCommand.mute (command : ViewCommand) : Mute (command.perform w) := by
  cases command with
  | make as host source map =>
    refine mute_found fun source => ?_
    cases host with
    | shared binder => exact mute_found fun n => mute_built fun map => rfl
    | fresh tree config => exact mute_found fun scope => mute_built fun config => mute_built fun map => rfl
  | mount view | unmount view | render view | state view | handle as view => exact mute_found fun v => rfl
  | setSource view source => exact mute_found fun v => mute_found fun source => rfl
  | setBindings view map => exact mute_found fun v => mute_built fun map => rfl

theorem TreeCommand.mute (command : TreeCommand) : Mute (command.perform w) := by
  cases command with
  | make as spec => rfl
  | subtree as tree selector =>
    refine mute_found fun scope => ?_
    split <;> rfl
  | save as tree selector nth =>
    refine mute_found fun scope => ?_
    simp only
    split <;> rfl
  | select tree selector | dump tree aspects | trigger tree event selector | delegations tree =>
    exact mute_found fun scope => rfl
  | append as parent tree spec => exact mute_found fun scope => mute_element fun w tree x => rfl
  | look element aspects | paint element attr value | readBack element attr => exact mute_element fun w tree x => rfl
  | change element aspect value =>
    refine mute_element fun w tree x => ?_
    split <;> rfl
  | dispatch tree event target => exact mute_found fun scope => mute_element fun w tree x => rfl

theorem NameCommand.mute (command : NameCommand) : Mute (command.perform w) := by
  cases command with
  | makeList as => rfl
  | emit list text | clear list | listState list => exact mute_found fun n => rfl
  | drop name => rfl
  | inspect name =>
    unfold perform
    simp only
    split <;> rfl

/-- **Only a write to a record emits.** -/
theorem Session.mute_perform (s : Session) {c : Command} (h : ∀ name entries, c ≠ .act (.record (.write name entries))) :
    (s.perform c).2.filterMap Task.change? = [] := by
  cases c with
  | act action =>
    cases action with
    | record command =>
      cases command with
      | make as fields => rfl
      | write name entries => exact absurd rfl (h name entries)
      | get record names | has record name | state record | destroy record | install record validator
      | clearValidator record => exact mute_found fun id => rfl
      | requestRender record => exact mute_found fun id => rfl
    | tree command => exact command.mute
    | collection command => exact command.mute
    | binder command => exact command.mute
    | view command => exact command.mute
    | name command => exact command.mute
  | listen site as tag script limit =>
    unfold perform
    simp only
    split <;> rfl

/-- **A command is a write to a record, or it writes nothing and emits nothing.** -/
theorem Session.write_or_mute (s : Session) (c : Command) :
    (∃ name entries id, c = .act (.record (.write name entries)) ∧ s.workspace.record? name = .ok id ∧
      s.deeds c = s.workspace.store.writeDeeds id) ∨
    (s.perform c).2.filterMap Task.change? = [] ∧ ∀ id, Deed.wrote id ∉ s.deeds c := by
  by_cases hwrite : ∃ name entries, c = .act (.record (.write name entries))
  · obtain ⟨name, entries, rfl⟩ := hwrite
    have hdeeds : s.deeds (.act (.record (.write name entries))) =
        foundDeeds (s.workspace.record? name) s.workspace.store.writeDeeds := rfl
    cases hname : s.workspace.record? name with
    | ok id =>
      rw [hname] at hdeeds
      exact .inl ⟨name, entries, id, rfl, hname, hdeeds⟩
    | error outcome =>
      rw [hname] at hdeeds
      refine .inr ⟨?_, fun id => hdeeds ▸ List.not_mem_nil⟩
      simp only [Session.perform, Action.perform, RecordCommand.perform, withFound, hname]
      rfl
  · refine .inr ⟨s.mute_perform fun name entries heq => hwrite ⟨name, entries, heq⟩, fun id hwrote => ?_⟩
    obtain ⟨name, entries, heq, -⟩ := s.of_wrote hwrote
    exact hwrite ⟨name, entries, heq⟩

/-- A callback that is called leaves a script at most. -/
theorem Session.changing_call (s : Session) (n : Nat) (report : Report) :
    (s.call n report).2.filterMap Frame.change? = [] := by
  unfold call
  split
  · rfl
  · split <;> rfl

theorem Session.changing_hear (s : Session) (l : Listener) (signal : Signal) :
    (s.hear l signal).2.filterMap Frame.change? = [] := by
  cases l with
  | callback n => exact s.changing_call n _
  | _ => rfl

/-! ## Batches -/

namespace Record.Batch

variable {validator : Option Validator}

/-- A batch goes on from another: names stay, and a field that was altered meanwhile is named. -/
structure Continues (b b' : Batch) : Prop where
  names : ∀ name ∈ b.changed.names, name ∈ b'.changed.names
  altered : ∀ name, b'.fields.get name ≠ b.fields.get name → name ∈ b'.changed.names
  proper : b.fields.Proper → b'.fields.Proper

/-- What a validator was asked and what it refused alters nothing. -/
theorem continues_of_same {b b' : Batch} (hfields : b'.fields = b.fields) (hchanged : b'.changed = b.changed) :
    b.Continues b' :=
  ⟨fun _ h => hchanged ▸ h, fun _ h => absurd (by rw [hfields]) h, fun h => hfields ▸ h⟩

theorem Continues.trans {a b c : Batch} (h : a.Continues b) (h' : b.Continues c) : a.Continues c where
  names name hname := h'.names name (h.names name hname)
  altered name hname := by
    by_cases hlater : c.fields.get name = b.fields.get name
    · exact h'.names name (h.altered name (hlater ▸ hname))
    · exact h'.altered name hlater
  proper hproper := h'.proper (h.proper hproper)

/-- **Storing a value alters no field but the one that it names.** -/
theorem continues_store (b : Batch) (name : String) (v : Value) : b.Continues (b.store name v) := by
  unfold store
  cases hstore : b.fields.store? name v with
  | none => exact continues_of_same rfl rfl
  | some fields =>
    have hnamed : name ∈ (b.changed.insert name).names := ChangeSet.mem_insert.mpr (.inr rfl)
    refine ⟨fun other h => ChangeSet.mem_insert.mpr (.inl h), fun other halter => ?_, fun hproper => ?_⟩
    · -- another field reads as before
      by_cases hname : other = name
      · exact hname ▸ hnamed
      · refine absurd ?_ halter
        simp only [Fields.store?] at hstore
        split at hstore
        · split at hstore
          · cases hstore
            simp only [Fields.get, Dict.get?_erase, if_neg hname]
          · cases hstore
        · split at hstore
          · cases hstore
          · cases hstore
            simp only [Fields.get, Dict.get?_insert, if_neg hname]
    · simp only [Fields.store?] at hstore
      split at hstore
      · split at hstore
        · cases hstore
          exact hproper.erase name
        · cases hstore
      · next hv =>
        split at hstore
        · cases hstore
        · cases hstore
          exact hproper.insert name (by simpa using hv)

theorem continues_write (b : Batch) (entry : String × Value) : b.Continues (b.write validator entry) := by
  unfold Batch.write
  split
  · exact b.continues_store _ _
  · have hasked : b.Continues { b with consulted := b.consulted ++ [entry] } := continues_of_same rfl rfl
    simp only
    split
    · exact hasked.trans (continues_store _ _ _)
    · exact continues_of_same rfl rfl

theorem continues_foldl (entries : List (String × Value)) (b : Batch) :
    b.Continues (entries.foldl (Batch.write validator) b) := by
  induction entries generalizing b with
  | nil => exact continues_of_same rfl rfl
  | cons entry rest ih => exact (b.continues_write entry).trans (ih _)

end Record.Batch

namespace Record

variable {r : Record} {entries front : List (String × Value)}

/-- **A batch names every field that it alters on the way**, the fields that it alters back included. -/
theorem mem_changed_batch (hfront : front <+: entries) {name : String}
    (h : (r.batch front).fields.get name ≠ r.fields.get name) : name ∈ (r.batch entries).changed.names := by
  obtain ⟨behind, rfl⟩ := hfront
  have hbehind : (r.batch front).Continues (behind.foldl (Batch.write r.validator) (r.batch front)) :=
    Batch.continues_foldl behind _
  rw [batch, List.foldl_append]
  exact hbehind.names name ((Batch.continues_foldl front (.start r.fields)).altered name h)

theorem proper_batch (h : r.fields.Proper) : (r.batch entries).fields.Proper :=
  (Batch.continues_foldl entries (.start r.fields)).proper h

end Record

/-! ## Turns -/

namespace Machine

variable {m m' : Machine} {id : RecordId} {entries : List (String × Value)} {base : List Frame}

theorem changing_of_stack (tasks : List Task) (base : List Frame) (h : m'.stack = tasks.map .task ++ base) :
    m'.changing = tasks.filterMap Task.change? ++ base.filterMap Frame.change? := by
  rw [changing, h, List.filterMap_append, List.filterMap_map]
  rfl

/-- Below what a batch leaves there is nothing new. -/
theorem Writes.changing_base (h : m.Writes id entries m' base) : base.filterMap Frame.change? = m.changing := by
  cases h with
  | host hidle =>
    rw [changing, hidle]
    rfl
  | script hstack =>
    rw [changing, hstack]
    rfl
  | handler hstack =>
    rw [changing, hstack]
    rfl

/-- A step of a task is a batch of writes, or it writes nothing and emits nothing. -/
theorem task_cases {task : Task} {rest : List Frame} (hstack : m.stack = .task task :: rest) (h : m.step? = some m') :
    (∃ id entries base, m.Writes id entries m' base ∧ m.stepDeeds = m.store.writeDeeds id) ∨
      m.begun m' = [] ∧ ∀ id, Deed.wrote id ∉ m.stepDeeds := by
  have hstep := h
  simp only [step?, hstack, Option.some.injEq] at h
  subst h
  have hchanging : m.changing = [task].filterMap Task.change? ++ rest.filterMap Frame.change? :=
    changing_of_stack [task] rest hstack
  cases task with
  | reply outcome =>
    refine .inr ⟨begun_of_same ?_, fun id => by simp [stepDeeds, hstack]⟩
    rw [hchanging]
    cases rest <;> rfl
  | request id => exact .inr ⟨begun_of_same hchanging.symm, fun id => by simp [stepDeeds, hstack]⟩
  | trigger event tree xs count =>
    cases xs with
    | nil => exact .inr ⟨begun_of_same hchanging.symm, fun id => by simp [stepDeeds, hstack]⟩
    | cons x xs => exact .inr ⟨begun_of_same hchanging.symm, fun id => by simp [stepDeeds, hstack]⟩
  | notify ch pinned signal waiting =>
    cases waiting with
    | nil =>
      -- a notification that is over is one less that is running
      refine .inr ⟨begun_of_changing ?_, fun id => by simp [stepDeeds, hstack]⟩
      rw [hchanging, List.length_append]
      exact Nat.le_add_left _ _
    | cons l waiting =>
      refine .inr ⟨begun_of_same ?_, fun id => ?_⟩
      · rw [hchanging, changing, runTask]
        simp only [List.filterMap_append, m.session.changing_hear l signal, List.nil_append]
        cases ch <;> cases signal <;> rfl
      · simp only [stepDeeds, hstack]
        exact (mild_reactDeeds _ _ _).wrote id
  | dispatch tree pinned event waiting =>
    cases waiting with
    | nil => exact .inr ⟨begun_of_same hchanging.symm, fun id => by simp [stepDeeds, hstack]⟩
    | cons met waiting =>
      obtain ⟨handler, x⟩ := met
      cases handler with
      | callback n =>
        refine .inr ⟨begun_of_same ?_, fun id => by simp [stepDeeds, hstack, Session.meetDeeds]⟩
        rw [hchanging, changing, runTask]
        simp only [List.filterMap_append, Session.meet, m.session.changing_call, List.nil_append]
        rfl
      -- only writing back is a batch of writes
      | writeBack context => exact .inl ⟨context.record, _, _, .handler hstack rfl rfl hstep, by
        simp only [stepDeeds, hstack]
        rfl⟩

/-- **A turn is a batch of writes, or it writes nothing and emits nothing.** -/
theorem turn_cases {t : Turn} (h : m.turn? t = some m') :
    (∃ id entries base, m.Writes id entries m' base ∧ m.turnDeeds t = m.store.writeDeeds id) ∨
      m.begun m' = [] ∧ ∀ id, Deed.wrote id ∉ m.turnDeeds t := by
  cases turned_of_turn h with
  | began c hidle =>
    obtain ⟨name, entries, id, rfl, hname, hwrote⟩ | ⟨hmute, hplain⟩ := m.session.write_or_mute c
    · exact .inl ⟨id, entries, _, .host hidle hname, hwrote⟩
    · refine .inr ⟨begun_of_same ?_, hplain⟩
      rw [changing_of_stack (m.session.perform c).2 [] (List.append_nil _).symm, hmute, changing, hidle]
      rfl
  | asked cs hstack =>
    refine .inr ⟨begun_of_same ?_, fun id => List.not_mem_nil⟩
    rw [changing, changing, hstack]
    rfl
  | read hidle => exact .inr ⟨begun_of_same rfl, fun id => by simp [turnDeeds]⟩
  | ended hstack =>
    refine .inr ⟨begun_of_same ?_, fun id => by simp [turnDeeds, stepDeeds, hstack]⟩
    rw [changing, changing, hstack]
    rfl
  | @performed c cs rest hstack =>
    have hdeeds : m.turnDeeds .step = m.session.deeds c := by simp only [turnDeeds, stepDeeds, hstack]
    rw [hdeeds]
    obtain ⟨name, entries, id, rfl, hname, hwrote⟩ | ⟨hmute, hplain⟩ := m.session.write_or_mute c
    · exact .inl ⟨id, entries, _, .script hstack hname h, hwrote⟩
    · refine .inr ⟨begun_of_same ?_, hplain⟩
      rw [changing_of_stack (m.session.perform c).2 (.script cs :: rest) rfl, hmute, changing, hstack]
      rfl
  | ran hstack => exact task_cases hstack h

/-! ## Batches and their notification -/

/-- **A batch of writes to a record emits its one notification**, after it has stored everything and before anything else
is done on its behalf. -/
structure Announces (m : Machine) (id : RecordId) (entries : List (String × Value)) (m' : Machine) (base : List Frame)
    (set : ChangeSet) : Prop where
  alive : (m.store.record id).alive = true
  /-- It is the one that the turn emits. -/
  begun : m.begun m' = [(id, set)]
  /-- It tells something. -/
  nonempty : set.names ≠ []
  /-- Everything is stored. -/
  stored : m'.store.fields id = ((m.store.record id).batch entries).fields
  /-- Every field is named that the first so many writes alter. -/
  named : ∀ front, front <+: entries → ∀ name,
    ((m.store.record id).batch front).fields.get name ≠ (m.store.fields id).get name → name ∈ set.names
  counted : (m'.store.record id).version = (m.store.record id).version + 1
  /-- It is carried out on top, and is over before the batch is; a request to be rendered is all that may follow. -/
  carried : ∃ pinned waiting later,
    m'.stack = .task (.notify (.changes id) pinned (.changed set) waiting) :: (later.map .task ++ base) ∧
      (later = [] ∨ later = [.request id]) ∧
      ∀ turns m'', m'.Returns base turns m'' → ∃ before behind mid, turns = before ++ behind ∧
        m'.Returns (later.map .task ++ base) before mid ∧ mid.Returns base behind m''

/-- **A batch of writes to a record alters nothing and emits nothing.** -/
structure Passes (m : Machine) (id : RecordId) (entries : List (String × Value)) (m' : Machine) : Prop where
  begun : m.begun m' = []
  fields : m'.store.fields id = m.store.fields id
  version : (m'.store.record id).version = (m.store.record id).version
  unaltered : (m.store.record id).alive = true → ∀ front, front <+: entries → ∀ name,
    ((m.store.record id).batch front).fields.get name = (m.store.fields id).get name

theorem requestsOf_cases (id : RecordId) (b : Record.Batch) : requestsOf id b = [] ∨ requestsOf id b = [.request id] := by
  unfold requestsOf
  split
  · exact .inl rfl
  · exact .inr rfl

theorem change?_requestsOf (id : RecordId) (b : Record.Batch) : (requestsOf id b).filterMap Task.change? = [] := by
  obtain h | h := requestsOf_cases id b <;> rw [h] <;> rfl

theorem lt_size_stored {s : Store} (hid : id.number < s.records.size) (entries : List (String × Value)) :
    id.number < (s.stored id entries).records.size := by
  rw [stored, modifyRecord, Array.size_modify]
  exact Nat.lt_of_lt_of_le hid (s.extends_validated id _).records

/-- **A batch of writes emits exactly if it alters something.** -/
theorem Writes.outcome (h : m.Writes id entries m' base) :
    m.Passes id entries m' ∨ ∃ set, m.Announces id entries m' base set := by
  obtain ⟨s, -, hrecords, hstore, hstack⟩ := h.spec
  have hrecord : s.record id = m.store.record id := by simp only [record, hrecords]
  have hchanging := changing_of_stack _ _ hstack
  rw [h.changing_base] at hchanging
  cases halive : (s.record id).alive with
  | false =>
    -- a record that was destroyed takes no values
    rw [write_of_dead halive] at hstore hchanging
    have hsame : m'.store.record id = m.store.record id := by rw [hstore]; exact hrecord
    refine .inl ⟨begun_of_same hchanging, by rw [Store.fields, hsame, Store.fields], by rw [hsame], fun hlive => ?_⟩
    rw [← hrecord, halive] at hlive
    cases hlive
  | true =>
    have hthere := s.lt_of_alive halive
    have hversion := version_stored halive entries
    have hstored := fields_stored s entries hthere
    cases hchanged : ((s.record id).batch entries).changed.isEmpty with
    | true =>
      -- no field is altered: at most a request follows, which is no notification of changes
      rw [write_of_unchanged halive hchanged] at hstore hchanging
      rw [change?_requestsOf] at hchanging
      rw [hchanged, if_pos rfl] at hversion
      rw [Record.fields_batch hchanged] at hstored
      refine .inl ⟨begun_of_same hchanging, ?_, ?_, fun _ front hfront name => ?_⟩
      · rw [hstore, hstored, hrecord, Store.fields]
      · rw [hstore, hversion, hrecord]
      · by_contra halter
        rw [← hrecord, Store.fields, ← hrecord] at halter
        have hnamed := Record.mem_changed_batch hfront halter
        rw [List.isEmpty_iff.mp hchanged] at hnamed
        cases hnamed
    | false =>
      -- a field is altered: its notification is begun in front of everything that waits
      have hkept := follows_notify (s.stored id entries) (.changes id) (.changed ((s.record id).batch entries).changed)
      rw [write_of_changed halive hchanged] at hstore hchanging hstack
      rw [hchanged] at hversion
      rw [List.filterMap_cons, change?_requestsOf] at hchanging
      refine .inr ⟨((s.record id).batch entries).changed, hrecord ▸ halive, begun_of_append hchanging, ?_, ?_, ?_, ?_, ?_⟩
      · intro hnil
        rw [ChangeSet.isEmpty, hnil] at hchanged
        cases hchanged
      · rw [hstore, ← hrecord, ← hstored]
        exact hkept.fields id (lt_size_stored hthere entries) List.not_mem_nil
      · intro front hfront name halter
        rw [← hrecord, Store.fields, ← hrecord] at halter
        exact Record.mem_changed_batch hfront halter
      · rw [hstore, hkept.version id List.not_mem_nil, hversion, hrecord]
        rfl
      · refine ⟨_, _, _, hstack, requestsOf_cases _ _, fun turns m'' hreturns => ?_⟩
        have htop : m'.stack = [_] ++ ((requestsOf id ((s.record id).batch entries)).map Frame.task ++ base) := hstack
        exact hreturns.split htop

/-! ## Runs -/

variable {turns : List Turn}

/-- **What a turn does to a record**: nothing, or a batch of writes with its notification, if it emits one. -/
theorem turn_record {t : Turn} (hm : m.Sound) (h : m.turn? t = some m') (id : RecordId) :
    (∃ entries base, m.Writes id entries m' base) ∨
      Deed.wrote id ∉ m.turnDeeds t ∧ Follows (m.turnDeeds t) m.store m'.store ∧ ∀ e ∈ m.begun m', e.1 ≠ id := by
  have hfollows := (does_turn hm h).effects.follows hm.scene
  obtain ⟨id', entries, base, hwrites, hdeeds⟩ | ⟨hnone, hplain⟩ := turn_cases h
  · by_cases hid : id' = id
    · exact .inl ⟨entries, base, hid ▸ hwrites⟩
    · refine .inr ⟨fun hwrote => ?_, hfollows, ?_⟩
      · rw [hdeeds, writeDeeds] at hwrote
        split at hwrote
        · cases List.mem_singleton.mp hwrote
          exact hid rfl
        · cases hwrote
      · obtain hpasses | ⟨set, hannounces⟩ := hwrites.outcome
        · simp [hpasses.begun]
        · simp [hannounces.begun, hid]
  · exact .inr ⟨hplain id, hfollows, by simp [hnone]⟩

/-- Notifications of other records do not count. -/
theorem filter_eq_nil {es : List (RecordId × ChangeSet)} (h : ∀ e ∈ es, e.1 ≠ id) : es.filter (·.1 = id) = [] :=
  List.filter_eq_nil_iff.mpr fun e he => by simpa using h e he

/-- **A turn counts what it emits.** -/
theorem version_turn {t : Turn} (hm : m.Sound) (h : m.turn? t = some m') (id : RecordId) :
    (m'.store.record id).version = (m.store.record id).version + ((m.begun m').filter (·.1 = id)).length := by
  obtain ⟨entries, base, hwrites⟩ | ⟨hwrote, hfollows, hother⟩ := turn_record hm h id
  · obtain hpasses | ⟨set, hannounces⟩ := hwrites.outcome
    · rw [hpasses.version, hpasses.begun]
      rfl
    · rw [hannounces.counted, hannounces.begun]
      simp
  · rw [hfollows.version id hwrote, filter_eq_nil hother]
    rfl

/-- **The version of a record counts its notifications.** -/
theorem version_walk (hm : m.Sound) (h : m.walk? turns = some m') (id : RecordId) :
    (m'.store.record id).version = (m.store.record id).version + ((m.emitted turns).filter (·.1 = id)).length := by
  induction turns generalizing m with
  | nil =>
    cases h
    rfl
  | cons t rest ih =>
    obtain ⟨next, hturn, h⟩ := walk?_cons h
    have hrest := ih ((does_turn hm hturn).sound hm) h
    rw [hrest, version_turn hm hturn id]
    simp only [emitted, hturn, Option.elim_some, List.filter_append, List.length_append]
    exact Nat.add_assoc _ _ _

/-- A turn keeps the fields of a record proper. -/
theorem proper_turn {t : Turn} (hm : m.Sound) (h : m.turn? t = some m') (hproper : (m.store.fields id).Proper) :
    (m'.store.fields id).Proper := by
  obtain ⟨entries, base, hwrites⟩ | ⟨hwrote, hfollows, -⟩ := turn_record hm h id
  · obtain hpasses | ⟨set, hannounces⟩ := hwrites.outcome
    · rwa [hpasses.fields]
    · rw [hannounces.stored]
      exact Record.proper_batch hproper
  · exact hfollows.proper id hwrote hproper

/-- A turn emits no notification without names. -/
theorem nonempty_turn {t : Turn} (h : m.turn? t = some m') : ∀ e ∈ m.begun m', e.2.names ≠ [] := by
  obtain ⟨id, entries, base, hwrites, -⟩ | ⟨hnone, -⟩ := turn_cases h
  · obtain hpasses | ⟨set, hannounces⟩ := hwrites.outcome
    · simp [hpasses.begun]
    · simp [hannounces.begun, hannounces.nonempty]
  · simp [hnone]

/-- **A turn that alters the fields of a record is a batch of writes that emits.** -/
theorem announces_of_altered {t : Turn} (hm : m.Sound) (h : m.turn? t = some m') (hid : id.number < m.store.records.size)
    (halter : m'.store.fields id ≠ m.store.fields id) :
    ∃ entries base set, m.Writes id entries m' base ∧ m.Announces id entries m' base set := by
  obtain ⟨entries, base, hwrites⟩ | ⟨hwrote, hfollows, -⟩ := turn_record hm h id
  · obtain hpasses | ⟨set, hannounces⟩ := hwrites.outcome
    · exact absurd hpasses.fields halter
    · exact ⟨entries, base, set, hwrites, hannounces⟩
  · exact absurd (hfollows.fields id hid hwrote) halter

/-- **A destroyed record stays as it is**, in one turn. -/
theorem dead_turn {t : Turn} (hm : m.Sound) (h : m.turn? t = some m') (hid : id.number < m.store.records.size)
    (hdead : (m.store.record id).alive = false) :
    m'.store.fields id = m.store.fields id ∧ (m'.store.record id).version = (m.store.record id).version ∧
      (m'.store.record id).alive = false := by
  have hstays : (m'.store.record id).alive = false := by
    by_contra halive
    have hbefore := ((does_turn hm h).effects.follows hm.scene).dead id hid (by simpa using halive)
    rw [hdead] at hbefore
    cases hbefore
  obtain ⟨entries, base, hwrites⟩ | ⟨hwrote, hfollows, -⟩ := turn_record hm h id
  · obtain hpasses | ⟨set, hannounces⟩ := hwrites.outcome
    · exact ⟨hpasses.fields, hpasses.version, hstays⟩
    · rw [hannounces.alive] at hdead
      cases hdead
  · exact ⟨hfollows.fields id hid hwrote, hfollows.version id hwrote, hstays⟩

/-- **A destroyed record stays as it is**, whatever happens. -/
theorem dead_walk (hm : m.Sound) (h : m.walk? turns = some m') (hid : id.number < m.store.records.size)
    (hdead : (m.store.record id).alive = false) :
    m'.store.fields id = m.store.fields id ∧ (m'.store.record id).version = (m.store.record id).version ∧
      (m'.store.record id).alive = false := by
  induction turns generalizing m with
  | nil =>
    cases h
    exact ⟨rfl, rfl, hdead⟩
  | cons t rest ih =>
    obtain ⟨next, hturn, h⟩ := walk?_cons h
    have hdoes := does_turn hm hturn
    obtain ⟨hfields, hversion, hstays⟩ := dead_turn hm hturn hid hdead
    have hthere := Nat.lt_of_lt_of_le hid (hdoes.effects.follows hm.scene).records
    obtain ⟨hfields', hversion', hstays'⟩ := ih (hdoes.sound hm) h hthere hstays
    exact ⟨hfields'.trans hfields, hversion'.trans hversion, hstays'⟩

/-- Destroying a record leaves it destroyed. -/
theorem dead_of_destroy (s : Session) {name : String} (hname : s.workspace.record? name = .ok id) :
    ((s.perform (.act (.record (.destroy name)))).1.workspace.store.record id).alive = false := by
  have hstore : (s.perform (.act (.record (.destroy name)))).1.workspace.store = s.workspace.store.destroy id := by
    simp only [Session.perform, Action.perform, RecordCommand.perform, withFound, hname]
    rfl
  rw [hstore, destroy, ← Bool.not_eq_true, alive_destroy]
  exact fun h => h.2 rfl

/-- A walk emits no notification without names. -/
theorem nonempty_walk (h : m.walk? turns = some m') : ∀ e ∈ m.emitted turns, e.2.names ≠ [] := by
  induction turns generalizing m with
  | nil => exact fun e he => absurd he List.not_mem_nil
  | cons t rest ih =>
    obtain ⟨next, hturn, h⟩ := walk?_cons h
    simp only [emitted, hturn, Option.elim_some, List.mem_append]
    rintro e (he | he)
    · exact nonempty_turn hturn e he
    · exact ih h e he

theorem proper_walk (hm : m.Sound) (h : m.walk? turns = some m') (hproper : (m.store.fields id).Proper) :
    (m'.store.fields id).Proper := by
  induction turns generalizing m with
  | nil =>
    cases h
    exact hproper
  | cons t rest ih =>
    obtain ⟨next, hturn, h⟩ := walk?_cons h
    exact ih ((does_turn hm hturn).sound hm) h (proper_turn hm hturn hproper)

theorem record_initial (id : RecordId) : initial.store.record id = default := by
  simp only [store, initial, Session.empty, Workspace.empty, Store.record, Store.empty, Array.getD_eq_getD_getElem?]
  cases id.number <;> rfl

/-- **No change of a record is silent**, in any state of any run. The version of a record counts the notifications of it
that were emitted, nested ones included. Each of them has names, and none twice. A field is there exactly if it holds
something. A turn that alters stored fields is a batch of writes that emits exactly one notification with the names of all
fields that it altered, after all its stores and before it is over; a batch that emits nothing alters nothing on its way.
A destroyed record keeps its fields and its version for good. -/
theorem announced_of_walk {history : List Turn} (h : initial.walk? history = some m) (id : RecordId) :
    (m.store.record id).version = ((initial.emitted history).filter (·.1 = id)).length ∧
      (∀ e ∈ initial.emitted history, e.2.names ≠ [] ∧ e.2.names.Nodup) ∧
      (∀ name, (m.store.fields id).has name = true ↔ (m.store.fields id).get name ≠ .undefined) ∧
      (∀ t m', m.turn? t = some m' → id.number < m.store.records.size → m'.store.fields id ≠ m.store.fields id →
        ∃ entries base set, m.Writes id entries m' base ∧ m.Announces id entries m' base set) ∧
      (∀ entries m' base, m.Writes id entries m' base →
        m.Passes id entries m' ∨ ∃ set, m.Announces id entries m' base set) ∧
      (∀ name, m.session.workspace.record? name = .ok id →
        ((m.session.perform (.act (.record (.destroy name)))).1.workspace.store.record id).alive = false) ∧
      (id.number < m.store.records.size → (m.store.record id).alive = false →
        ∀ turns m', m.walk? turns = some m' → m'.store.fields id = m.store.fields id ∧
          (m'.store.record id).version = (m.store.record id).version ∧ (m'.store.record id).alive = false) := by
  have hsound := Reached.sound ⟨history, h⟩
  have hversion := version_walk sound_initial h id
  rw [record_initial, show (default : Record).version = 0 from rfl, Nat.zero_add] at hversion
  have hproper : (initial.store.fields id).Proper := by
    rw [Store.fields, record_initial]
    exact Fields.proper_empty
  refine ⟨hversion, fun e he => ⟨nonempty_walk h e he, e.2.nodup⟩, proper_walk sound_initial h hproper, ?_, ?_, ?_, ?_⟩
  · exact fun t m' hturn hid halter => announces_of_altered hsound hturn hid halter
  · exact fun entries m' base hwrites => hwrites.outcome
  · exact fun name hname => dead_of_destroy m.session hname
  · exact fun hid hdead turns m' hwalk => dead_walk hsound hwalk hid hdead

/-- A listener that writes another field back into the record that it hears of, and is about to. -/
def echoing : List Turn :=
  [.command (.act (.record (.make "r" []))), .step,
    .command (.listen (.changes "r") "guard" "A" [.act (.record (.write "r" [("b", .bool true)]))] 1), .step,
    .command (.act (.record (.write "r" [("a", .bool true)]))), .step]

/-- The notification of the first field is in progress, and the second one is announced as well. -/
theorem announced_of_walk_echoing :
    ∃ m m' entries base set, initial.walk? echoing = some m ∧ m.step? = some m' ∧
      (m.store.record ⟨1⟩).version = 1 ∧ (initial.emitted echoing).filter (·.1 = ⟨1⟩) = [(⟨1⟩, .single "a")] ∧
      m.Writes ⟨1⟩ entries m' base ∧ m.Announces ⟨1⟩ entries m' base set ∧ set.names = ["b"] := by
  have hrun : (initial.walk? echoing).bind (fun m => m.step?.map fun m' => ((m.store.record ⟨1⟩).version,
      m.store.records.size, (m.store.fields ⟨1⟩).get "b", (m'.store.fields ⟨1⟩).get "b", m.begun m')) =
      some (1, 2, .undefined, .bool true, [(⟨1⟩, .single "b")]) := by rfl
  have hemitted : initial.emitted echoing = [(⟨1⟩, .single "a")] := by rfl
  obtain ⟨m, hwalk, hnext⟩ := Option.bind_eq_some_iff.mp hrun
  obtain ⟨m', hstep, heq⟩ := Option.map_eq_some_iff.mp hnext
  simp only [Prod.mk.injEq] at heq
  obtain ⟨hversion, hsize, hbefore, hbehind, hbegun⟩ := heq
  obtain ⟨-, -, -, haltered, -⟩ := announced_of_walk hwalk ⟨1⟩
  obtain ⟨entries, base, set, hwrites, hannounces⟩ := haltered .step m' hstep (by rw [hsize]; decide) fun hsame => by
    rw [hsame, hbefore] at hbehind
    cases hbehind
  refine ⟨m, m', entries, base, set, hwalk, hstep, hversion, by rw [hemitted]; rfl, hwrites, hannounces, ?_⟩
  have hset := hannounces.begun.symm.trans hbegun
  simp only [List.cons.injEq, Prod.mk.injEq, and_true, true_and] at hset
  rw [hset]
  rfl

end Machine

end Databind
