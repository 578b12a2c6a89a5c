import Databind.Tree.Arena
import Databind.Value

/-!
# `Tree.Paint` — values on elements, in both directions

`Arena.paint` writes a value to an attribute of an element and `Arena.readBack` reads what a user left
there. What is read is coerced to the kind of value that the field holds already (`Value.coerce`).
-/

namespace Databind

namespace Arena

/-- Write a value to an attribute of an element. An absent value clears texts and removes a named
attribute; a dimension changes only by a finite number. -/
def paint (arena : Arena) (x : Nat) (attr : Attribute) (v : Value) : Arena :=
  match attr with
  | .text => arena.setText x v.displayOrEmpty
  | .html => arena.setHtml x v.displayOrEmpty
  | .value => arena.edit x fun c => { c with value := v.displayOrEmpty }
  | .dimension dimension =>
    if v.isUndefined || !v.toNumber.isFinite then arena
    else arena.edit x fun c => c.setDimension dimension v.toNumber
  | .property name => arena.edit x fun c => c.setProperty name v.truthy
  | .visibility => arena.edit x fun c => { c with visible := v.truthy }
  | .generic name =>
    arena.edit x fun c => c.setAttribute name (if v.isUndefined then none else some v.display)

/-- The value of an attribute of an element. -/
def readBack (arena : Arena) (x : Nat) (attr : Attribute) : Value :=
  match attr with
  | .text => .string (arena.textContent x)
  | .html => .string (arena.textContent x)
  | .value => .string (arena.content x).value
  | .dimension dimension => .number ((arena.content x).dimension dimension)
  | .property name => .bool ((arena.content x).property name)
  | .visibility => .bool (arena.isVisible x)
  | .generic name => ((arena.content x).attribute? name).elim .undefined .string

end Arena

/-- The value to store when the user leaves `raw` where a field of a given kind is shown, perhaps
negated. -/
def Value.coerce (raw : Value) (kind : Value.Kind) (negate : Bool) : Value :=
  match kind with
  | .number =>
    match raw with
    | .number n => .number n
    | other => .number (floatPrefix other.display)
  | .bool => .bool (raw.truthy != negate)
  | _ => raw

end Databind
