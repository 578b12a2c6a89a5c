import Databind.Expression.Template
import Databind.Expression.Tree

/-!
# `Accessor` — how a binding obtains its value

An accessor reads one field, evaluates an operator expression, fills in a template, or applies a function
that the host supplies. Only the first has a field to write back to.
-/

namespace Databind

/-- How a binding obtains its value from a record. -/
inductive Accessor where
  | field (name : String)
  | expression (tree : Expression.Tree)
  | template (template : Expression.Template)
  | computed (compute : Fields → Value)

namespace Accessor

/-- The value on a record's fields. -/
def evaluate (fields : Fields) : Accessor → Value
  | field name => fields.get name
  | expression tree => tree.evaluate fields
  | template t => .string (t.render fields)
  | computed compute => compute fields

/-- The field that a two-way binding writes back to. -/
def field? : Accessor → Option String
  | field name => some name
  | _ => none

theorem eq_of_field? {accessor : Accessor} {name : String} (h : accessor.field? = some name) :
    accessor = field name := by
  cases accessor with
  | field name' => exact congrArg field (Option.some.inj h)
  | _ => cases h

/-- Whether the accessor has no field to write back to. -/
def isFunction (accessor : Accessor) : Bool := accessor.field?.isNone

end Accessor

end Databind
