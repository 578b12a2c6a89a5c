import Databind.Error

/-!
# `Descriptor` — where a declarative binding writes

A key of a binding map names a target: `selector` is the text of the matched elements, `[attr]selector`
one of their attributes, `[event@attr]selector` an attribute bound in both directions, the default event
standing in when `event` is missing.

`Descriptor.narrowed` narrows a target to one member's element under a collection.
-/

namespace Databind

/-- Where a binding writes, and the event that writes back. -/
structure Descriptor where
  selector : String
  attr : String
  event : Option String
deriving DecidableEq

namespace Descriptor

/-- The attribute and event between the brackets of a key. -/
def readTarget (inner : List Char) (defaultEvent : String) : String × Option String :=
  match Text.splitAt? '@' inner with
  | some (event, attr) =>
    let event := Text.cleanChars event
    (String.ofList (Text.cleanChars attr),
      some (if event = [] then defaultEvent else String.ofList event))
  | none => (String.ofList (Text.cleanChars inner), none)

/-- Read a key. Only a bracket that opens the key and is never closed is an error. -/
def parse (key defaultEvent : String) : Except BindError Descriptor :=
  match key.toList with
  | '[' :: rest =>
    match Text.splitAt? ']' rest with
    | some (inner, selector) =>
      let (attr, event) := readTarget inner defaultEvent
      .ok ⟨String.ofList (Text.trimChars selector), attr, event⟩
    | none => .error (.invalidDescriptor key)
  | _ => .ok ⟨Text.trim key, "", none⟩

/-- The target narrowed to the `n`th element of its type (from one) under a parent. -/
def narrowed (d : Descriptor) (parent : String) (n : Nat) : Descriptor :=
  { d with selector := Text.trim (parent ++ ":nth-of-type(" ++ toString n ++ ") " ++ d.selector) }

end Descriptor

/-- Split an index marker `[key]` off a text: the cleaned key, and the text without the marker. An empty
marker, and one that holds another opening bracket, are none. -/
def splitIndexMarker (s : String) : Option (String × String) := do
  let (before, rest) ← Text.splitAt? '[' s.toList
  let (inner, behind) ← Text.splitAt? ']' rest
  if inner = [] ∨ '[' ∈ inner then none
  else some (String.ofList (Text.cleanChars inner), String.ofList (before ++ behind))

end Databind
