import Databind.Attribute
import Databind.Record.ChangeSet
import Databind.Record.Id
import Databind.Roster
import Databind.Selector.Basic

/-!
# `Guard` — who listens, and where

Notifications travel on channels: two for each record, two for each collection, one for the user-interface
events of each tree, and one for each free list of listeners. A guard names a subscription on a channel;
whoever holds the guard keeps the subscription alive.

A listener is either a callback of the host or one of the reactions of a binder. Reactions of a binder
are data, so the state of all listeners is plain data too.
-/

namespace Databind

/-- Where notifications travel. -/
inductive Channel where
  /-- Changes of a record's fields. -/
  | changes (record : RecordId)
  /-- Requests to render a record again. -/
  | requests (record : RecordId)
  /-- Removals of members from a collection. -/
  | removals (collection : Nat)
  /-- Replacements of all members of a collection. -/
  | resets (collection : Nat)
  /-- User-interface events of a tree. -/
  | delegations (tree : Nat)
  /-- A free list of listeners. -/
  | list (n : Nat)
deriving DecidableEq

/-- A subscription on a channel. -/
structure Guard where
  channel : Channel
  id : Nat
deriving DecidableEq

/-- Who hears a notification. -/
inductive Listener where
  /-- A callback of the host. -/
  | callback (n : Nat)
  /-- A binder renders the bindings that a change of a record triggers. -/
  | repaint (binder : Nat) (record : RecordId)
  /-- A binder renders all bindings of a record. -/
  | repaintAll (binder : Nat) (record : RecordId)
  /-- A binder removes the bindings of a member that left. -/
  | dropMember (binder : Nat)
  /-- A binder removes everything. -/
  | dropAll (binder : Nat)
deriving DecidableEq

/-- Where and how a user's edit is written back. -/
structure WriteBack where
  record : RecordId
  field : String
  attr : Attribute
  negate : Bool
deriving DecidableEq

/-- Who hears an event of the user interface. -/
inductive EventHandler where
  | callback (n : Nat)
  | writeBack (context : WriteBack)
deriving DecidableEq

/-- A handler of one event, on the elements below a root that a selector matches, or on the root itself. -/
structure Delegation where
  event : String
  /-- The selector; without one the handler is the root's own. -/
  selector : Option Selector
  root : Nat
  handler : EventHandler
deriving DecidableEq

/-- What a notification tells its listeners. -/
inductive Signal where
  | changed (set : ChangeSet)
  | render
  | removed (member : RecordId)
  | reset
  | emitted (text : String)
deriving DecidableEq

end Databind
