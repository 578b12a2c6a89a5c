import Databind.Attribute
import Databind.Dict
import Databind.Number.Basic

/-!
# `Tree.Node` — elements and their descriptions

An element has a tag, attributes, its own text, perhaps markup, an editable value, boolean properties, a
visibility flag and two dimensions. A `Spec` describes an element and its children before they are part
of a tree.
-/

namespace Databind

/-- What an element holds by itself, apart from its place in a tree. -/
structure Content where
  tag : String
  attributes : Dict String
  text : String
  /-- The markup last set, if it was set after the text. -/
  markup : Option String
  value : String
  properties : Dict Bool
  visible : Bool
  width : Number
  height : Number
deriving DecidableEq

namespace Content

/-- A visible element with a tag and nothing else. -/
def ofTag (tag : String) : Content :=
  { tag
    attributes := .empty
    text := ""
    markup := none
    value := ""
    properties := .empty
    visible := true
    width := .zero false
    height := .zero false }

/-- The value of an attribute. -/
def attribute? (c : Content) (name : String) : Option String := c.attributes.get? name

/-- Set an attribute, or remove it. -/
def setAttribute (c : Content) (name : String) (value : Option String) : Content :=
  match value with
  | some value => { c with attributes := c.attributes.insert name value }
  | none => { c with attributes := c.attributes.erase name }

/-- Add a class behind those that are there. -/
def addClass (c : Content) (name : String) : Content :=
  let classes := (c.attribute? "class").getD ""
  c.setAttribute "class" (some (if classes = "" then name else classes ++ " " ++ name))

/-- A boolean property; one that was never set is off. -/
def property (c : Content) (name : String) : Bool := (c.properties.get? name).getD false

def setProperty (c : Content) (name : String) (on : Bool) : Content :=
  { c with properties := c.properties.insert name on }

def dimension (c : Content) : Dimension → Number
  | .width => c.width
  | .height => c.height

def setDimension (c : Content) (dimension : Dimension) (n : Number) : Content :=
  match dimension with
  | .width => { c with width := n }
  | .height => { c with height := n }

end Content

/-- A description of an element and its children. -/
inductive Spec where
  | node (content : Content) (children : List Spec)

/-- An element in its place: the numbers of its parent, if it has one, and of its children in order. -/
structure Node where
  content : Content
  parent : Option Nat
  children : List Nat
deriving DecidableEq

end Databind
