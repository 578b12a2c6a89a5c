import Databind.Proofs.Run

/-!
# `Proofs.Writing` — writes to records

A batch of writes comes from the host, from a script or from a handler that writes an edit back
(`Machine.Writes`), and nothing else alters the fields of a record (`Machine.writes_of_wrote`). What it leaves to
do stands above what was left before: a notification, if a field was altered, and then a request to be rendered,
if a write was refused.
-/

namespace Databind

open Store

/-! ## Batches -/

namespace Record.Batch

variable {validator : Option Validator}

theorem insert_isEmpty (set : ChangeSet) (name : String) : (set.insert name).isEmpty = false := by
  have hmem : name ∈ (set.insert name).names := ChangeSet.mem_insert.mpr (.inr rfl)
  cases hnames : (set.insert name).names with
  | nil => simp [hnames] at hmem
  | cons other rest => rw [ChangeSet.isEmpty, hnames, List.isEmpty_cons]

/-- Storing a value names the field it alters. -/
theorem store_cases (b : Batch) (name : String) (v : Value) :
    (b.store name v).fields = b.fields ∧ (b.store name v).changed = b.changed ∨
      (b.store name v).changed.isEmpty = false := by
  unfold store
  split
  · exact .inr (insert_isEmpty _ _)
  · exact .inl ⟨rfl, rfl⟩

/-- One write of a batch leaves all fields as they are, or counts as an alteration. -/
theorem write_cases (b : Batch) (entry : String × Value) :
    (b.write validator entry).fields = b.fields ∧ (b.write validator entry).changed = b.changed ∨
      (b.write validator entry).changed.isEmpty = false := by
  unfold Batch.write
  split
  · exact b.store_cases _ _
  · simp only
    split
    · exact store_cases _ _ _
    · exact .inl ⟨rfl, rfl⟩

/-- **A batch that alters nothing** leaves the fields that it started from. -/
theorem fields_foldl (entries : List (String × Value)) (b : Batch)
    (h : (entries.foldl (Batch.write validator) b).changed.isEmpty = true) :
    b.changed.isEmpty = true ∧ (entries.foldl (Batch.write validator) b).fields = b.fields := by
  induction entries generalizing b with
  | nil => exact ⟨h, rfl⟩
  | cons entry rest ih =>
    obtain ⟨hempty, hfields⟩ := ih (b.write validator entry) h
    rcases b.write_cases entry with ⟨hsame, hchanged⟩ | hnonempty
    · exact ⟨hchanged ▸ hempty, hfields.trans hsame⟩
    · rw [hnonempty] at hempty
      cases hempty

end Record.Batch

/-- **A batch that names no field alters none.** -/
theorem Record.fields_batch {r : Record} {entries : List (String × Value)}
    (h : (r.batch entries).changed.isEmpty = true) : (r.batch entries).fields = r.fields :=
  (Batch.fields_foldl entries _ h).2

/-! ## Who writes -/

/-- Deeds that write to no record and do not read the journal. -/
structure Plain (ds : List Deed) : Prop where
  wrote : ∀ id, Deed.wrote id ∉ ds
  read : Deed.read ∉ ds

namespace Plain

variable {ds ds' : List Deed}

theorem nil : Plain [] := ⟨fun _ => List.not_mem_nil, List.not_mem_nil⟩

theorem append (h : Plain ds) (h' : Plain ds') : Plain (ds ++ ds') where
  wrote id hmem := (List.mem_append.mp hmem).elim (h.wrote id) (h'.wrote id)
  read hmem := (List.mem_append.mp hmem).elim h.read h'.read

theorem act (n : Nat) (a : Act) : Plain [.act n a] := ⟨fun _ => by simp, by simp⟩

theorem of_mild (h : Mild ds) : Plain ds := ⟨h.wrote, h.read⟩

/-- Whatever is looked up first. -/
theorem of_found {ε α : Type} {found : Except ε α} {deeds : α → List Deed} (h : ∀ a, Plain (deeds a)) :
    Plain (Workspace.foundDeeds found deeds) := by
  cases found with
  | ok a => exact h a
  | error e => exact nil

end Plain

namespace Workspace

theorem plain_retireDeeds (w : Workspace) (n : Nat) : Plain (w.retireDeeds n) := by
  unfold retireDeeds
  split
  · exact .nil
  · exact .act n .retired

/-- What is let go of is unmounted or retired: no record is written for that. -/
theorem plain_letGoDeeds (w : Workspace) (h : Handle) : Plain (w.letGoDeeds h) := by
  cases h with
  | binder n => exact w.plain_retireDeeds n
  | view v => exact (Plain.of_mild (mild_unmountDeeds _ v)).append (plain_retireDeeds _ _)
  | _ => exact .nil

theorem plain_assignDeeds (w : Workspace) (name : String) (h : Handle) : Plain (w.assignDeeds name h) := by
  unfold assignDeeds
  cases w.handle? name with
  | none => exact .nil
  | some old => exact plain_letGoDeeds _ old

theorem plain_forgetDeeds (w : Workspace) (name : String) : Plain (w.forgetDeeds name) := by
  unfold forgetDeeds
  cases w.handle? name with
  | none => exact .nil
  | some old => exact plain_letGoDeeds _ old

end Workspace

open Workspace

variable {w : Workspace}

/-- Commands to collections write no records; so it is with all but commands to records. -/
theorem CollectionCommand.plain (command : CollectionCommand) : Plain (command.deeds w) := by
  cases command with
  | make as members => exact .of_found fun ids => plain_assignDeeds _ _ _
  | _ => exact .nil

theorem BinderCommand.plain (command : BinderCommand) : Plain (command.deeds w) := by
  cases command with
  | make as tree config =>
    exact .of_found fun scope => .of_found fun config => (Plain.act _ .made).append (plain_assignDeeds _ _ _)
  | clone as binder => exact .of_found fun n => plain_assignDeeds _ _ _
  | bind binder record property key twoWay autoRender =>
    refine .of_found fun n => .of_found fun id => .of_found fun property => .of_mild ?_
    unfold bindDeeds
    split
    · exact mild_commitDeeds _ _ _
    · simp [Mild]
  | unbind binder record key => exact .of_found fun n => .of_found fun id => .act n _
  | unbindAll binder record => exact .of_found fun n => .of_found fun id => .act n _
  | render binder record => exact .of_found fun n => .of_found fun id => .of_mild (mild_renderDeeds _ _ _)
  | attach binder source map autoRender =>
    exact .of_found fun n => .of_found fun source => .of_found fun map => .of_mild (mild_attachDeeds _ _ _ _ _)
  | detach binder => exact .of_found fun n => .of_mild (mild_detachDeeds n)
  | _ => exact .nil

theorem ViewCommand.plain (command : ViewCommand) : Plain (command.deeds w) := by
  cases command with
  | make as host source map =>
    refine .of_found fun source => ?_
    cases host with
    | shared binder => exact .of_found fun n => .of_found fun map => plain_assignDeeds _ _ _
    | fresh tree config =>
      exact .of_found fun scope => .of_found fun config => .of_found fun map =>
        (Plain.act _ .made).append (plain_assignDeeds _ _ _)
  | mount view => exact .of_found fun v => .of_mild (mild_attachDeeds _ _ _ _ _)
  | unmount view => exact .of_found fun v => .of_mild (mild_unmountDeeds _ v)
  | render view => exact .of_found fun v => .of_mild (mild_renderDeeds _ _ _)
  | handle as view => exact .of_found fun v => plain_assignDeeds _ _ _
  | _ => exact .nil

theorem plain_strayDeeds (s : Store) (k x : Nat) : Plain (s.strayDeeds k x) := by
  unfold strayDeeds
  split
  · exact .nil
  · exact ⟨fun id => by simp, by simp⟩

/-- **All that a command on trees does to binders comes from a name that is given anew**; to a tree it does no more than
to append to an element that it does not have. -/
theorem TreeCommand.deeds_elim {motive : List Deed → Prop} (hnone : motive [])
    (hassign : ∀ (w : Workspace) (name : String) (h : Handle), motive (w.assignDeeds name h))
    (happend : ∀ (s : Store) (k x : Nat) (w : Workspace) (name : String) (h : Handle),
      motive (s.strayDeeds k x ++ w.assignDeeds name h)) (command : TreeCommand) : motive (command.deeds w) := by
  have found {α : Type} {found : Except Outcome α} {deeds : α → List Deed} (h : ∀ a, motive (deeds a)) :
      motive (foundDeeds found deeds) := by
    cases found with
    | ok a => exact h a
    | error e => exact hnone
  cases command with
  | make as spec => exact hassign _ as _
  | subtree as tree selector =>
    refine found fun scope => ?_
    split
    · exact hassign _ as _
    · exact hnone
  | save as tree selector nth =>
    refine found fun scope => ?_
    simp only
    split
    · exact hassign _ as _
    · exact hnone
  | append as parent tree spec =>
    refine found fun scope => ?_
    unfold elementDeeds
    split
    · split
      · exact happend _ _ _ _ as _
      · exact hnone
    · refine found fun scope => ?_
      split
      · exact happend _ _ _ _ as _
      · exact hnone
  | _ => exact hnone

theorem TreeCommand.plain (command : TreeCommand) : Plain (command.deeds w) :=
  command.deeds_elim .nil plain_assignDeeds fun s k x w' name h =>
    (plain_strayDeeds s k x).append (plain_assignDeeds w' name h)

theorem NameCommand.plain (command : NameCommand) : Plain (command.deeds w) := by
  cases command with
  | makeList as => exact plain_assignDeeds _ _ _
  | drop name => exact plain_forgetDeeds _ name
  | _ => exact .nil

/-- A command whose deeds name a write is a write to a record. -/
theorem RecordCommand.of_wrote {command : RecordCommand} {id : RecordId} (h : Deed.wrote id ∈ command.deeds w) :
    ∃ name entries, command = .write name entries ∧ w.record? name = .ok id := by
  cases command with
  | make as fields => exact absurd h ((plain_assignDeeds _ _ _).wrote id)
  | write name entries =>
    refine ⟨name, entries, rfl, ?_⟩
    cases hname : w.record? name with
    | error e => simp [deeds, foundDeeds, hname] at h
    | ok id' =>
      simp only [deeds, foundDeeds, hname, writeDeeds] at h
      split at h
      · cases List.mem_singleton.mp h
        rfl
      · cases h
  | destroy name =>
    cases hname : w.record? name <;> simp [deeds, foundDeeds, hname] at h
  | _ => cases h

/-- **Only a write to a record writes to it.** -/
theorem Session.of_wrote {s : Session} {c : Command} {id : RecordId} (h : Deed.wrote id ∈ s.deeds c) :
    ∃ name entries, c = .act (.record (.write name entries)) ∧ s.workspace.record? name = .ok id := by
  cases c with
  | act action =>
    cases action with
    | record command =>
      obtain ⟨name, entries, rfl, hname⟩ := RecordCommand.of_wrote h
      exact ⟨name, entries, rfl, hname⟩
    | tree command => exact absurd h (command.plain.wrote id)
    | collection command => exact absurd h (command.plain.wrote id)
    | binder command => exact absurd h (command.plain.wrote id)
    | view command => exact absurd h (command.plain.wrote id)
    | name command => exact absurd h (command.plain.wrote id)
  | listen site as tag script limit =>
    have hplain : Plain (s.deeds (.listen site as tag script limit)) := .of_found fun _ => plain_assignDeeds _ _ _
    exact absurd h (hplain.wrote id)

theorem Store.read_not_mem_writeDeeds (s : Store) (id : RecordId) : Deed.read ∉ s.writeDeeds id := by
  unfold writeDeeds
  split <;> simp

/-- A command does not read the journal. -/
theorem Session.read_not_mem_deeds (s : Session) (c : Command) : Deed.read ∉ s.deeds c := by
  cases c with
  | act action =>
    cases action with
    | record command =>
      cases command with
      | make as fields => exact (plain_assignDeeds _ _ _).read
      | write name entries =>
        change Deed.read ∉ foundDeeds (s.workspace.record? name) s.workspace.store.writeDeeds
        cases s.workspace.record? name with
        | error e => exact List.not_mem_nil
        | ok id => exact read_not_mem_writeDeeds _ id
      | destroy name =>
        change Deed.read ∉ foundDeeds (s.workspace.record? name) fun id => [.destroyed id]
        cases s.workspace.record? name <;> simp [foundDeeds]
      | _ => exact List.not_mem_nil
    | tree command => exact command.plain.read
    | collection command => exact command.plain.read
    | binder command => exact command.plain.read
    | view command => exact command.plain.read
    | name command => exact command.plain.read
  | listen site as tag script limit =>
    have hplain : Plain (s.deeds (.listen site as tag script limit)) := .of_found fun _ => plain_assignDeeds _ _ _
    exact hplain.read

namespace Machine

/-- A step does not read the journal. -/
theorem read_not_mem_stepDeeds (m : Machine) : Deed.read ∉ m.stepDeeds := by
  unfold stepDeeds
  split
  · exact m.session.read_not_mem_deeds _
  · exact (mild_reactDeeds _ _ _).read
  · next handler _ _ _ _ =>
    cases handler with
    | callback n => exact List.not_mem_nil
    | writeBack context => exact read_not_mem_writeDeeds _ _
  · exact List.not_mem_nil

/-- **A batch of writes to a record is carried out**: the machine after it, and what is left to do below the tasks
of the batch. -/
inductive Writes (m : Machine) (id : RecordId) (entries : List (String × Value)) : Machine → List Frame → Prop
  /-- The host writes. -/
  | host {name : String} (hidle : m.stack = []) (hname : m.session.workspace.record? name = .ok id) :
    Writes m id entries (.start m.session (.act (.record (.write name entries)))) [.task (.reply .done)]
  /-- A script writes. -/
  | script {name : String} {cs : List Command} {rest : List Frame} {m' : Machine}
    (hstack : m.stack = .script (.act (.record (.write name entries)) :: cs) :: rest)
    (hname : m.session.workspace.record? name = .ok id) (hstep : m.step? = some m') :
    Writes m id entries m' (.task (.reply .done) :: .script cs :: rest)
  /-- A handler writes an edit back. -/
  | handler {tree : Nat} {pinned : List Nat} {event : String} {context : WriteBack} {x : Nat}
    {waiting : List (EventHandler × Nat)} {rest : List Frame} {m' : Machine}
    (hstack : m.stack = .task (.dispatch tree pinned event ((.writeBack context, x) :: waiting)) :: rest)
    (hrecord : context.record = id)
    (hentries : entries = [(context.field, ((m.store.arena tree).readBack x context.attr).coerce
      ((m.store.fields id).get context.field).kind context.negate)]) (hstep : m.step? = some m') :
    Writes m id entries m' (.task (.dispatch tree pinned event waiting) :: rest)

variable {m m' : Machine} {id : RecordId} {entries : List (String × Value)} {base : List Frame}

/-- A batch of writes is carried out on the records as they are. -/
theorem Writes.spec (h : m.Writes id entries m' base) :
    ∃ s, m.store.Extends s ∧ s.records = m.store.records ∧ m'.store = (s.write id entries).1 ∧
      m'.stack = (s.write id entries).2.map .task ++ base := by
  have hperform {name : String} (hname : m.session.workspace.record? name = .ok id) :
      m.session.perform (.act (.record (.write name entries))) =
        ({ m.session with workspace := m.session.workspace.withStore (m.store.write id entries).1 },
          (m.store.write id entries).2 ++ [.reply .done]) := by
    simp only [Session.perform, Action.perform, RecordCommand.perform, withFound, hname]
    rfl
  cases h with
  | host hidle hname =>
    refine ⟨m.store, .refl _, rfl, ?_, ?_⟩
    · rw [store, start, hperform hname]
      rfl
    · simp only [start, hperform hname, List.map_append]
      rfl
  | script hstack hname hstep =>
    simp only [step?, hstack, hperform hname, Option.some.injEq] at hstep
    subst hstep
    refine ⟨m.store, .refl _, rfl, rfl, ?_⟩
    simp only [List.map_append, List.append_assoc]
    rfl
  | @handler tree pinned event context x waiting rest m' hstack hrecord hentries hstep =>
    simp only [step?, hstack, Option.some.injEq] at hstep
    subst hstep hrecord hentries
    exact ⟨_, m.store.extends_log _ rfl, rfl, rfl, rfl⟩

/-- A batch of writes leaves what stands below the top as it is. -/
theorem Writes.base_eq (h : m.Writes id entries m' base) {f : Frame} {rest : List Frame}
    (hstack : m.stack = f :: rest) : ∃ upper, base = upper ++ rest := by
  cases h with
  | host hidle => cases hidle.symm.trans hstack
  | script h =>
    cases h.symm.trans hstack
    exact ⟨[_, _], rfl⟩
  | handler h =>
    cases h.symm.trans hstack
    exact ⟨[_], rfl⟩

/-- **Whatever writes to a record is a batch of writes.** -/
theorem writes_of_wrote {t : Turn} (h : m.turn? t = some m') (hwrote : Deed.wrote id ∈ m.turnDeeds t) :
    ∃ entries base, m.Writes id entries m' base := by
  cases t with
  | step =>
    simp only [turnDeeds, stepDeeds] at hwrote
    split at hwrote
    · next c cs rest hstack =>
      obtain ⟨name, entries, rfl, hname⟩ := Session.of_wrote hwrote
      exact ⟨entries, _, .script hstack hname h⟩
    · exact absurd hwrote ((mild_reactDeeds _ _ _).wrote id)
    · next tree pinned event handler x waiting rest hstack =>
      cases handler with
      | callback n => cases hwrote
      | writeBack context =>
        simp only [Session.meetDeeds, writeDeeds] at hwrote
        split at hwrote
        · cases List.mem_singleton.mp hwrote
          exact ⟨_, _, .handler hstack rfl rfl h⟩
        · cases hwrote
    · cases hwrote
  | command c =>
    cases turned_of_turn h with
    | began _ hidle =>
      obtain ⟨name, entries, rfl, hname⟩ := Session.of_wrote hwrote
      exact ⟨entries, _, .host hidle hname⟩
  | ask cs => cases hwrote
  | read => cases List.mem_singleton.mp hwrote

end Machine

end Databind
