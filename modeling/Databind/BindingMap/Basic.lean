import Databind.Property.Basic
import Databind.Descriptor

/-!
# `BindingMap` — declarative maps from targets to values

A binding map lists descriptor keys with what to bind there: the text of an expression, a property, or,
under a collection, a nested map for every member. A key stands once, at the place where it was first
inserted; inserting it again replaces its value.
-/

namespace Databind

/-- What a binding map binds at a key. -/
inductive MapValue where
  | expression (text : String)
  | property (property : Property)
  | nested (entries : List (String × MapValue))

/-- An ordered map from descriptor keys to values. -/
structure BindingMap where
  entries : List (String × MapValue)

/-- A property of a map, where a nested map has no place. -/
def MapValue.property? (descriptor : String) : MapValue → Except BindError Property
  | expression text => ((Expression.compile text).mapError .expression).map .compiled
  | property p => .ok p
  | nested _ => .error (.misplacedMap descriptor)

namespace BindingMap

/-- The map without entries. -/
def empty : BindingMap := ⟨[]⟩

/-- Entries with one key set: in place when the key is there, at the end otherwise. -/
def insertEntry (key : String) (value : MapValue) :
    List (String × MapValue) → List (String × MapValue)
  | [] => [(key, value)]
  | entry :: rest =>
    if entry.1 = key then (key, value) :: rest else entry :: insertEntry key value rest

/-- The map with one key set. -/
def insert (map : BindingMap) (key : String) (value : MapValue) : BindingMap :=
  ⟨insertEntry key value map.entries⟩

/-- The value under a key. -/
def get? (map : BindingMap) (key : String) : Option MapValue := map.entries.lookup key

/-- The map of a list of entries, inserted in order. -/
def ofList (entries : List (String × MapValue)) : BindingMap :=
  entries.foldl (fun map entry => map.insert entry.1 entry.2) empty

def isEmpty (map : BindingMap) : Bool := map.entries.isEmpty

/-- The keys of entries after an insertion: the keys before, and the new one if it was not there. -/
theorem keys_insertEntry (key : String) (value : MapValue) (entries : List (String × MapValue)) :
    (insertEntry key value entries).map (·.1) =
      if key ∈ entries.map (·.1) then entries.map (·.1) else entries.map (·.1) ++ [key] := by
  induction entries with
  | nil => simp [insertEntry]
  | cons entry rest ih =>
    simp only [insertEntry]
    split
    · next h => simp [h]
    · next h =>
      have h' : key ≠ entry.1 := fun he => h he.symm
      simp only [List.map_cons, ih, List.mem_cons, h', false_or]
      split <;> simp_all

end BindingMap

end Databind
