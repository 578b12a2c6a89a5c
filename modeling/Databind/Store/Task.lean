import Databind.Store.Render

/-!
# `Store.Task` — what is left to do after a write

A write takes effect at once, but those who listen are called one after the other, and each of them may
do anything in between. What is left is therefore kept as tasks: a notification with the listeners still
to be called, an event with the handlers still to be called, a request to render that waits for its turn,
or an event still to be fired at some elements.

## Main definitions

* `Task` — what is left to do.
* `Store.write`, `Store.writeBack` — writes to a record, and the tasks they leave.
* `Store.removeMember`, `Store.resetMembers`, `Store.emit`, `Store.fire` — the other sources of tasks.
-/

namespace Databind

/-- Something left to do. -/
inductive Task where
  /-- Call the listeners that a notification on a channel has not reached yet. -/
  | notify (channel : Channel) (pinned : List Nat) (signal : Signal) (rest : List Listener)
  /-- Call the handlers that an event has not reached yet, each with the element it passes. -/
  | dispatch (tree : Nat) (pinned : List Nat) (event : String) (rest : List (EventHandler × Nat))
  /-- Ask a record's listeners to render it. -/
  | request (record : RecordId)
  /-- Fire an event at elements; `count` handlers were called so far. -/
  | trigger (event : String) (tree : Nat) (targets : List Nat) (count : Nat)
  /-- Give the answer of a command. -/
  | reply (outcome : Outcome)

namespace Store

/-- Begin a notification. -/
def notify (s : Store) (channel : Channel) (signal : Signal) : Store × Task :=
  let (s, live) := s.draw channel
  (s, .notify channel (live.map (·.id)) signal (live.map (·.listener)))

/-- Begin to pass an event up from a target; also how many handlers will be called. -/
def fire (s : Store) (tree : Nat) (event : String) (target : Nat) : Store × Task × Nat :=
  let (s, met) := s.drawEvent tree event target
  (s, .dispatch tree (met.map (·.1.id)) event (met.map fun (e, x) => (e.listener.handler, x)), met.length)

/-- **Write fields of a record.** A destroyed record ignores writes. Altered fields are notified once for
the whole batch, and then, if a write was refused, the record asks to be rendered. -/
def write (s : Store) (id : RecordId) (entries : List (String × Value)) : Store × List Task :=
  let r := s.record id
  if !r.alive then (s.log (.writeIgnored id), [])
  else
    let b := r.batch entries
    let s := b.consulted.foldl (fun s (name, v) => s.observe (.validate name v)) s
    let s := s.logAll (b.refused.map fun (name, reason) => .writeRefused id name reason)
    let s := s.modifyRecord id (·.commit b)
    let later := if b.refused.isEmpty then [] else [Task.request id]
    if b.changed.isEmpty then (s, later)
    else
      let (s, task) := s.notify (.changes id) (.changed b.changed)
      (s, task :: later)

/-- Write a user's edit of an element back to its record. -/
def writeBack (s : Store) (tree : Nat) (event : String) (context : WriteBack) (x : Nat) :
    Store × List Task :=
  let raw := (s.arena tree).readBack x context.attr
  let kind := ((s.fields context.record).get context.field).kind
  let v := raw.coerce kind context.negate
  (s.log (.writtenBack context.record context.field event v)).write context.record [(context.field, v)]

/-- Destroy a record. -/
def destroy (s : Store) (id : RecordId) : Store :=
  (s.log (.destroyed id)).modifyRecord id Record.destroy

/-- Remove the first occurrence of a member from a collection. -/
def removeMember (s : Store) (c : Nat) (id : RecordId) : Store × List Task :=
  if id ∈ (s.collection c).members then
    let s := s.modifyCollection c fun x => { x with members := x.members.erase id }
    let (s, task) := (s.log (.memberRemoved id)).notify (.removals c) (.removed id)
    (s, [task, .reply (.record id)])
  else (s, [.reply .noRecord])

/-- Replace all members of a collection. -/
def resetMembers (s : Store) (c : Nat) (members : List RecordId) : Store × List Task :=
  let s := s.modifyCollection c fun x => { x with members }
  let (s, task) := (s.log (.collectionReset members.length)).notify (.resets c) .reset
  (s, [task, .reply .done])

end Store

end Databind
