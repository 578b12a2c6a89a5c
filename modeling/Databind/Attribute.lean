/-!
# `Attribute` — the classes of attribute a binding writes

The attribute key of a binding decides what is written to an element: its text, its markup, its editable
value, a dimension, a boolean property, its visibility, or a named attribute.
-/

namespace Databind

/-- A numeric dimension of an element. -/
inductive Dimension where
  | width
  | height
deriving DecidableEq

/-- What a binding writes to an element. -/
inductive Attribute where
  | text
  | html
  | value
  | dimension (dimension : Dimension)
  | property (name : String)
  | visibility
  | generic (name : String)
deriving DecidableEq

/-- The class of an attribute key. -/
def Attribute.classify (key : String) : Attribute :=
  if key = "" ∨ key = "text" then .text
  else if key = "html" then .html
  else if key = "value" ∨ key = "val" then .value
  else if key = "width" then .dimension .width
  else if key = "height" then .dimension .height
  else if key ∈ ["selected", "checked", "readonly", "disabled"] then .property key
  else if key = "display" ∨ key = "visible" then .visibility
  else .generic key

end Databind
