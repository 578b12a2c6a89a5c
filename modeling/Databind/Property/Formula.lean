import Databind.Property.Basic

/-!
# `Property.Formula` — requests for properties

A host asks for a property with a request. `Request.build` gives the property; only an expression in it
can be at fault. A `Formula` describes a computed value by data instead of a function.
-/

namespace Databind

/-- A computed value described by data. -/
inductive Formula where
  | field (name : String)
  /-- Twice the numeric reading of a field. -/
  | double (name : String)
  /-- The texts of fields with bars between them. -/
  | concat (names : List String)
  /-- Whether a field is present. -/
  | has (name : String)
  | const (value : Value)
deriving DecidableEq

/-- The value of a formula on a record's fields. -/
def Formula.evaluate (formula : Formula) (fields : Fields) : Value :=
  match formula with
  | field name => fields.get name
  | double name => .number ((fields.get name).toNumber.mul (.ofNat 2))
  | concat names => .string ("|".intercalate (names.map fun name => (fields.get name).display))
  | has name => .bool (fields.has name)
  | const value => value

namespace Property

/-- How a host asks for a property. -/
inductive Request where
  | field (name : String)
  | expression (text : String)
  | computed (compute : Fields → Value)
  | structured (property : Request) (negate : Bool) (triggers : Option (List String))
  | negated (property : Request)
  | withTriggers (names : List String) (property : Request)

/-- The property that a request describes. -/
def Request.build : Request → Except BindError Property
  | field name => .ok (.field name)
  | expression text => ((Expression.compile text).mapError .expression).map .compiled
  | computed compute => .ok (.computed compute)
  | structured property negate triggers => do
    let property ← property.build
    .ok (.structured property negate triggers)
  | negated property => (property.build).map Property.negated
  | withTriggers names property => (property.build).map (Property.withTriggers names)

end Property

end Databind
