import Databind.Binding
import Databind.Selector.Basic

/-!
# `Notice` — what the library reports while it works

A notice says what happened, in data. `Notice.severity`, `Notice.message` and `Notice.details` give its
written form; a reader who asks for one severity sees it and everything more severe.
-/

namespace Databind

/-- How severe a notice is, the most severe first. -/
inductive Severity where
  | warn
  | debug
  | trace
deriving DecidableEq

namespace Severity

/-- The place in the order of severity, from the most severe. -/
def rank : Severity → Nat
  | warn => 0
  | debug => 1
  | trace => 2

/-- How the severity is written. -/
def display : Severity → String
  | warn => "WARN"
  | debug => "DEBUG"
  | trace => "TRACE"

end Severity

/-- Something that happened. -/
inductive Notice where
  | writeIgnored (record : RecordId)
  | destroyed (record : RecordId)
  | writeRefused (record : RecordId) (field reason : String)
  | memberRemoved (record : RecordId)
  | collectionReset (size : Nat)
  | queryFailed (error : Selector.Error)
  | delegationFailed (error : Selector.Error) (event : String)
  | noElement (record : RecordId) (key : BindingKey)
  | rendered (record : RecordId) (key : BindingKey) (value : Value) (targets : Nat)
  | writtenBack (record : RecordId) (field event : String) (value : Value)
  | noBindings (record : RecordId)
  | forcedRender (record : RecordId) (bindings : Nat)
  | undefinedField (record : RecordId) (field : String)
  | attached (record : RecordId)
  | detached (record : RecordId)
  /-- A record detached together with all its bindings. -/
  | detachedAll (record : RecordId) (bindings : Nat)
  | detachedCollections (count : Nat)
  | replaced (record : RecordId) (key : BindingKey)
  | unbound (record : RecordId) (key : BindingKey)
  | noMatchingBinding (record : RecordId) (key : BindingKey)
  | noActiveBindings (record : RecordId)
  | expanded (members bindings : Nat)
  | detachingBindings
  | released (bindings : Nat)
deriving DecidableEq

namespace Notice

def severity : Notice → Severity
  | queryFailed _ => .warn
  | delegationFailed _ _ => .warn
  | noElement _ _ => .warn
  | noBindings _ => .warn
  | undefinedField _ _ => .warn
  | noMatchingBinding _ _ => .warn
  | noActiveBindings _ => .warn
  | writeIgnored _ => .trace
  | rendered _ _ _ _ => .trace
  | writtenBack _ _ _ _ => .trace
  | forcedRender _ _ => .trace
  | replaced _ _ => .trace
  | unbound _ _ => .trace
  | _ => .debug

def message : Notice → String
  | writeIgnored _ => "write to destroyed record ignored"
  | destroyed _ => "record destroyed"
  | writeRefused _ _ _ => "write rejected by validator"
  | memberRemoved _ => "collection member removed"
  | collectionReset _ => "collection reset"
  | queryFailed _ => "headless query failed"
  | delegationFailed _ _ => "delegated listener not attached"
  | noElement _ _ => "could not bind value: no such element found"
  | rendered _ _ _ _ => "render binding"
  | writtenBack _ _ _ _ => "sync from ui"
  | noBindings _ => "no bindings found for changed record"
  | forcedRender _ _ => "forced re-render"
  | undefinedField _ _ => "binding to undefined record field"
  | attached _ => "attached record listeners"
  | detached _ => "detached record listeners"
  | detachedAll _ _ => "detached record listeners"
  | detachedCollections _ => "detached collection listeners"
  | replaced _ _ => "replaced binding"
  | unbound _ _ => "unbound"
  | noMatchingBinding _ _ => "could not unbind: no matching binding"
  | noActiveBindings _ => "could not unbind: record has no active bindings"
  | expanded _ _ => "expanded collection bindings"
  | detachingBindings => "collection reset; detaching bindings"
  | released _ => "released bindings"

/-- The details of a binding: its record, selector and attribute. -/
def ofBinding (record : RecordId) (key : BindingKey) : List (String × String) :=
  [("record", record.display), ("selector", key.selector), ("attribute", key.attr)]

/-- The named details of a notice. -/
def details : Notice → List (String × String)
  | writeIgnored record => [("record", record.display)]
  | destroyed record => [("record", record.display)]
  | writeRefused record field reason =>
    [("record", record.display), ("field", field), ("reason", reason)]
  | memberRemoved record => [("record", record.display)]
  | collectionReset size => [("len", toString size)]
  | queryFailed error => [("err", error.message)]
  | delegationFailed error event => [("err", error.message), ("event", event)]
  | noElement record key => ofBinding record key
  | rendered record key value targets =>
    ofBinding record key ++ [("value", value.display), ("targets", toString targets)]
  | writtenBack record field event value =>
    [("record", record.display), ("field", field), ("event", event), ("value", value.display)]
  | noBindings record => [("record", record.display)]
  | forcedRender record bindings => [("record", record.display), ("bindings", toString bindings)]
  | undefinedField record field => [("record", record.display), ("field", field)]
  | attached record => [("record", record.display)]
  | detached record => [("record", record.display)]
  | detachedAll record bindings => [("record", record.display), ("bindings", toString bindings)]
  | detachedCollections count => [("count", toString count)]
  | replaced record key => ofBinding record key
  | unbound record key => ofBinding record key
  | noMatchingBinding record key => ofBinding record key
  | noActiveBindings record => [("record", record.display)]
  | expanded members bindings => [("members", toString members), ("bindings", toString bindings)]
  | detachingBindings => []
  | released bindings => [("bindings", toString bindings)]

end Notice

end Databind
