import Databind.Binding

/-!
# `Registry` — the bindings of one binder

The registry has an entry for each record with bindings, in order of records. An entry lists its bindings
in order of registration, at most one for each key, and owns the guards of the two listeners on its
record. Binding a key again removes the old binding and adds the new one at the end.
-/

namespace Databind

namespace Registry

/-- The bindings of one record. -/
structure Entry where
  record : RecordId
  bindings : List Binding
  onChange : Guard
  onRequest : Guard

end Registry

/-- The bindings of one binder, by record. -/
abbrev Registry := List Registry.Entry

namespace Registry

/-- The entry of a record. -/
def entryOf? (registry : Registry) (id : RecordId) : Option Entry := registry.find? (·.record = id)

/-- Whether a record has an entry. -/
def has (registry : Registry) (id : RecordId) : Bool := (registry.entryOf? id).isSome

/-- The bindings of a record in order of registration. -/
def bindingsOf (registry : Registry) (id : RecordId) : List Binding :=
  ((registry.entryOf? id).map Entry.bindings).getD []

/-- Every binding, entry by entry. -/
def bindings (registry : Registry) : List Binding := registry.flatMap Entry.bindings

/-- Open an entry at its place in the order of records. -/
def openEntry (entry : Entry) : Registry → Registry
  | [] => [entry]
  | e :: rest =>
    if entry.record.number < e.record.number then entry :: e :: rest else e :: openEntry entry rest

/-- Change the entry of a record. -/
def modify (registry : Registry) (id : RecordId) (f : Entry → Entry) : Registry :=
  registry.map fun e => if e.record = id then f e else e

/-- The binding of a record under a key. -/
def find? (registry : Registry) (id : RecordId) (key : BindingKey) : Option Binding :=
  (registry.bindingsOf id).find? (·.key = key)

/-- Add a binding at the end of its record's entry, in place of the one under its key. -/
def insert (registry : Registry) (b : Binding) : Registry :=
  registry.modify b.record fun e => { e with bindings := e.bindings.filter (·.key ≠ b.key) ++ [b] }

/-- The registry without the entry of a record. -/
def close (registry : Registry) (id : RecordId) : Registry := registry.filter (·.record ≠ id)

/-- The bindings of a record without the one under a key. -/
def Entry.without (e : Entry) (key : BindingKey) : Entry :=
  { e with bindings := e.bindings.filter (·.key ≠ key) }

/-- Whether a key is the only one a record has. -/
def isLast (registry : Registry) (id : RecordId) (key : BindingKey) : Bool :=
  (registry.bindingsOf id).all (·.key = key)

/-- The registry without a binding; an entry that loses its last binding is closed. -/
def remove (registry : Registry) (id : RecordId) (key : BindingKey) : Registry :=
  if registry.isLast id key then registry.close id else registry.modify id (·.without key)

end Registry

end Databind
