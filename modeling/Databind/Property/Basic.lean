import Databind.Error

/-!
# `Property.Basic` — what to bind, and its normal form

A property says what a binding shows: a field, a function, a compiled expression, or a field or function
with its own negation and triggers. `Property.normalize` turns it into an accessor, a negation flag and
the names whose change repaints the binding; no names at all means every change does.
-/

namespace Databind

/-- What a binding shows. -/
inductive Property where
  | field (name : String)
  | computed (compute : Fields → Value)
  | structured (property : Property) (negate : Bool) (triggers : Option (List String))
  | compiled (expression : Expression.Compiled)

/-- A property in normal form. Without triggers every change repaints. -/
structure Normalized where
  accessor : Accessor
  negate : Bool
  triggers : Option (List String)

namespace Property

/-- The property with its value negated. -/
def negated : Property → Property
  | structured property _ triggers => structured property true triggers
  | other => structured other true none

/-- The property with its own triggers. -/
def withTriggers (names : List String) : Property → Property
  | structured property negate _ => structured property negate (some names)
  | other => structured other false (some names)

/-- The accessor of a field, whose name may not be blank. -/
def fieldAccessor (name : String) : Except BindError Accessor :=
  if Text.isBlankText name then .error (.invalidProperty .emptyField) else .ok (.field name)

/-- The names that trigger an accessor by itself: the field it reads directly. -/
def ownTriggers (accessor : Accessor) : Option (List String) := accessor.field?.map ([·])

/-- The accessor of what a structured property may wrap. -/
def plainAccessor : Property → Except BindError Accessor
  | field name => fieldAccessor name
  | computed compute => .ok (.computed compute)
  | structured _ _ _ => .error (.invalidProperty .nested)
  | compiled _ => .error (.invalidProperty .nested)

/-- **The normal form of a property.** -/
def normalize : Property → Except BindError Normalized
  | field name => do
    let accessor ← fieldAccessor name
    .ok ⟨accessor, false, ownTriggers accessor⟩
  | computed compute => .ok ⟨.computed compute, false, none⟩
  | compiled expression => .ok ⟨expression.accessor, expression.negate, some expression.triggers⟩
  | structured property negate triggers => do
    let accessor ← plainAccessor property
    .ok ⟨accessor, negate, triggers <|> ownTriggers accessor⟩

end Property

end Databind
