import Databind.Session.BinderCommand
import Databind.Session.NameCommand
import Databind.Session.TreeCommand

/-!
# `Session.Command` — everything a host can ask for

A command acts on one kind of object, or subscribes a callback of the host. A callback has a tag, a script
of commands, and a limit: each call is recorded, and the first calls up to the limit also run the script.

`Command.cost` bounds the work in a command, the scripts of its callback included; it is what makes runs
end although callbacks may do anything.
-/

namespace Databind

/-- A command that subscribes nothing. -/
inductive Action where
  | tree (command : TreeCommand)
  | record (command : RecordCommand)
  | collection (command : CollectionCommand)
  | binder (command : BinderCommand)
  | view (command : ViewCommand)
  | name (command : NameCommand)

/-- Where a callback listens. -/
inductive Site where
  | changes (record : String)
  | requests (record : String)
  | removals (collection : String)
  | resets (collection : String)
  | list (name : String)
  | events (tree event selector : String)
deriving DecidableEq

/-- Something a host asks for. -/
inductive Command where
  | act (action : Action)
  /-- Subscribe a callback and store its subscription under a name. -/
  | listen (site : Site) (as tag : String) (script : List Command) (limit : Nat)

mutual

/-- A bound on the commands and calls that a command can lead to by itself. -/
def Command.cost : Command → Nat
  | .act _ => 1
  | .listen _ _ _ script limit => 1 + limit * (1 + scriptCost script)

/-- The cost of a script. -/
def scriptCost : List Command → Nat
  | [] => 0
  | c :: rest => c.cost + scriptCost rest

end

theorem Command.cost_pos (c : Command) : 0 < c.cost := by
  cases c <;> simp only [Command.cost] <;> omega

/-- A callback of the host. -/
structure Callback where
  tag : String
  script : List Command
  /-- How many more calls run the script. -/
  remaining : Nat

/-- What a callback may still cost. -/
def Callback.cost (c : Callback) : Nat := c.remaining * (1 + scriptCost c.script)

/-- Carry out a command that subscribes nothing. -/
def Action.perform (w : Workspace) : Action → Workspace × List Task
  | tree command => command.perform w
  | record command => command.perform w
  | collection command => command.perform w
  | binder command => command.perform w
  | view command => command.perform w
  | name command => command.perform w

/-- Subscribe a callback by its number: the store, and its guard. -/
def Workspace.subscribeAt (w : Workspace) (n : Nat) : Site → Except Outcome (Store × Option Guard)
  | .changes record => do
    let id ← w.record? record
    let (store, guard) := w.store.subscribe (.changes id) (.callback n)
    .ok (store, some guard)
  | .requests record => do
    let id ← w.record? record
    let (store, guard) := w.store.subscribe (.requests id) (.callback n)
    .ok (store, some guard)
  | .removals collection => do
    let c ← w.collection? collection
    let (store, guard) := w.store.subscribe (.removals c) (.callback n)
    .ok (store, some guard)
  | .resets collection => do
    let c ← w.collection? collection
    let (store, guard) := w.store.subscribe (.resets c) (.callback n)
    .ok (store, some guard)
  | .list name => do
    let l ← w.list? name
    let (store, guard) := w.store.subscribe (.list l) (.callback n)
    .ok (store, some guard)
  | .events tree event selector => do
    let scope ← w.scope? tree
    .ok (w.store.delegate scope event selector (.callback n))

end Databind
