import Databind.BindingMap.Document
import Databind.Property.Formula

/-!
# `BindingMap.Request` — binding maps described by data

A binding map is given as a list of entries, inserted in order, or as the text of a JSON document.
-/

namespace Databind

/-- A value of a binding map described by data. -/
inductive MapValue.Request where
  | expression (text : String)
  | property (request : Property.Request)
  | nested (entries : List (String × MapValue.Request))

namespace MapValue.Request

mutual

/-- The value that a request describes. -/
def build : Request → Except BindError MapValue
  | expression text => .ok (.expression text)
  | property request => (request.build).map .property
  | nested entries => (buildEntries [] entries).map .nested

/-- The entries that requests describe, inserted in order behind those already `done`. -/
def buildEntries (done : List (String × MapValue)) :
    List (String × Request) → Except BindError (List (String × MapValue))
  | [] => .ok done
  | (key, request) :: rest => do
    let value ← request.build
    buildEntries (BindingMap.insertEntry key value done) rest

end

end MapValue.Request

namespace BindingMap

/-- A binding map described by data. -/
inductive Request where
  | entries (entries : List (String × MapValue.Request))
  | json (text : String)

/-- The binding map that a request describes. -/
def Request.build : Request → Except BindError BindingMap
  | entries es => (MapValue.Request.buildEntries [] es).map (⟨·⟩)
  | json text => (ofText Json.reader text).mapError .undecodable

end BindingMap

end Databind
