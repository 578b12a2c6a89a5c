import Databind.BindingMap.Basic
import Databind.Config.Basic
import Databind.Registry

/-!
# `Binder` — binders, views and what they bind to

A binder has a registry of bindings and renders into the tree below one root. It also owns the guards of
its listeners on the collection it was attached to. A view remembers what to attach and which bindings
its last mount created.
-/

namespace Databind

/-- A root element in a tree; selectors look below it. -/
structure Scope where
  tree : Nat
  root : Nat
deriving DecidableEq

/-- What a binding map is attached to. -/
inductive Source where
  | none
  | record (id : RecordId)
  | collection (n : Nat)
deriving DecidableEq

/-- Whether a source is a collection. -/
def Source.isCollection : Source → Bool
  | .collection _ => true
  | _ => false

/-- A binder. -/
structure Binder where
  scope : Scope
  config : Config
  registry : Registry
  collectionGuards : List Guard
  /-- Whether its last handle is gone. -/
  retired : Bool

/-- A view: what to attach to its binder, and what its last mount attached. -/
structure View where
  binder : Nat
  source : Source
  bindings : BindingMap
  owned : List (RecordId × BindingKey)
  ownsCollection : Bool

namespace Binder

/-- A binder without bindings. -/
def ofScope (scope : Scope) (config : Config) : Binder := ⟨scope, config, [], [], false⟩

instance : Inhabited Binder := ⟨{ ofScope ⟨0, 0⟩ {} with retired := true }⟩

/-- The records and keys of all bindings. -/
def keys (b : Binder) : List (RecordId × BindingKey) := b.registry.bindings.map fun x => (x.record, x.key)

end Binder

namespace View

/-- A view that is not mounted. -/
def ofBinder (binder : Nat) (source : Source) (bindings : BindingMap) : View :=
  ⟨binder, source, bindings, [], false⟩

instance : Inhabited View := ⟨ofBinder 0 .none .empty⟩

/-- Whether something its last mount attached is still its own. -/
def isMounted (v : View) : Bool := !v.owned.isEmpty || v.ownsCollection

end View

/-- One binding that a map asks for. -/
structure Planned where
  record : RecordId
  descriptor : Descriptor
  property : Property

end Databind
