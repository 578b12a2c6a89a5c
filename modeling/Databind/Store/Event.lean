import Databind.Binder.Basic
import Databind.Notice

/-!
# `Store.Event` — what a command answers, and what happens on the way

An `Outcome` is the answer to one command. An `Event` is something a command did that an observer outside
can see: a query or a handler asked of the tree, a validator consulted, a callback called, and the answers
to the commands of a callback.
-/

namespace Databind

/-- A binding as a snapshot shows it. -/
structure BindingInfo where
  key : BindingKey
  triggers : Option (List String)
  negate : Bool
  event : Option String
deriving DecidableEq

/-- The bindings of one record as a snapshot shows them. -/
structure RecordInfo where
  record : RecordId
  bindings : List BindingInfo
deriving DecidableEq

/-- A binder as a snapshot shows it. -/
structure BinderInfo where
  records : List RecordInfo
  collectionListeners : Nat
deriving DecidableEq

/-- The answer to a command. -/
inductive Outcome where
  | done
  | flag (b : Bool)
  | count (n : Nat)
  | record (id : RecordId)
  | noRecord
  | records (ids : List RecordId)
  | node (n : Nat)
  | noNode
  | nodes (ns : List Nat)
  | value (v : Value)
  | values (vs : List Value)
  | dump (rows : List (Nat × List Value))
  | recordState (version : Nat) (alive : Bool) (changeListeners requestListeners : Nat)
  | size (n : Nat)
  | plan (bindings : List Planned)
  | binderState (info : BinderInfo)
  | viewState (mounted : Bool) (source : String) (info : BinderInfo)
  | observing (observed : Bool) (bindings : Nat)
  | config (config : Config)
  | listState (size live : Nat)
  | text (s : String)
  | failed (error : BindError)
  /-- No element matches the selector of a command. -/
  | noElement (selector : String)
  /-- A name that a command mentions denotes nothing of the right kind. -/
  | unknown (name : String)

/-- What a callback is told. -/
inductive Report where
  | names (names : List String)
  | nothing
  | member (id : RecordId)
  | text (s : String)
  /-- A user-interface event, with the identifier and the value of the element it passes. -/
  | event (name : String) (id : Option String) (value : String)
deriving DecidableEq

/-- Something a command did. -/
inductive Event where
  | query (selector : String)
  | delegate (event selector : String)
  | validate (field : String) (value : Value)
  | call (tag : String) (report : Report)
  | did (outcome : Outcome)

end Databind
