import Databind.Guard
import Databind.Property.Basic

/-!
# `Binding` — one accessor shown on one attribute

A binding links an accessor of a record to an attribute of the elements that a selector matches. Within a
record it is known by its key, the selector and the attribute.
-/

namespace Databind

/-- What a binding is known by within its record. -/
structure BindingKey where
  selector : String
  attr : String
deriving DecidableEq

/-- A binding in effect. -/
structure Binding where
  record : RecordId
  key : BindingKey
  accessor : Accessor
  negate : Bool
  /-- The names whose change renders the binding; without a list every change does. -/
  triggers : Option (List String)
  /-- The event that writes back, for a two-way binding. -/
  event : Option String
  /-- The guard of the handler that writes back. -/
  guard : Option Guard

namespace Binding

/-- What the binding writes on its elements. -/
def target (b : Binding) : Attribute := Attribute.classify b.key.attr

/-- The value to show for a record's fields. -/
def value (b : Binding) (fields : Fields) : Value :=
  let raw := b.accessor.evaluate fields
  if b.negate then .bool !raw.truthy else raw

/-- Whether a change of the given names renders the binding. -/
def isTriggeredBy (b : Binding) (changed : ChangeSet) : Bool := b.triggers.all changed.intersects

end Binding

end Databind
