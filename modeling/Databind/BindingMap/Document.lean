import Databind.BindingMap.Basic
import Databind.Json.Reader

/-!
# `BindingMap.Document` — binding maps from JSON documents

A document of texts, flags, lists and ordered entries decodes to a binding map. A text is an expression.
Entries are a structured property when all keys are `property`, `negate` or `triggers` and some
`property` is a text; any other entries are a nested map. Flags and lists bind nothing by themselves.

## Main definitions

* `Document.ofJson?` — the documents among the JSON values.
* `BindingMap.ofDocument` — decode a document.
* `BindingMap.ofText` — decode a JSON text.
-/

namespace Databind

/-- What a binding map is decoded from. -/
inductive Document where
  | text (s : String)
  | flag (b : Bool)
  | list (items : List Document)
  | entries (members : List (String × Document))

namespace Document

/-- How deep containers may nest in a document. -/
def maxDepth : Nat := 127

mutual

/-- The document of a JSON value: no numbers, no nulls, no broken strings, and at most `depth` levels
of containers. -/
def ofJson? (depth : Nat) : Json → Option Document
  | .null => none
  | .number => none
  | .bool b => some (flag b)
  | .string s => s.map text
  | .array items =>
    match depth with
    | 0 => none
    | depth + 1 => (ofItems? depth items).map list
  | .object members =>
    match depth with
    | 0 => none
    | depth + 1 => (ofMembers? depth members).map entries

/-- The documents of the items of an array. -/
def ofItems? (depth : Nat) : List Json → Option (List Document)
  | [] => some []
  | item :: rest => do
    let item ← ofJson? depth item
    let rest ← ofItems? depth rest
    some (item :: rest)

/-- The documents of the members of an object. -/
def ofMembers? (depth : Nat) : List (Option String × Json) → Option (List (String × Document))
  | [] => some []
  | (key, value) :: rest => do
    let key ← key
    let value ← ofJson? depth value
    let rest ← ofMembers? depth rest
    some ((key, value) :: rest)

end

/-- Whether a document is a text. -/
def isText : Document → Bool
  | text _ => true
  | _ => false

/-- Whether entries make up a structured property. -/
def isStructured (members : List (String × Document)) : Bool :=
  members.any (fun m => m.1 = "property" ∧ m.2.isText) &&
    members.all (fun m => m.1 = "property" ∨ m.1 = "negate" ∨ m.1 = "triggers")

/-- The names in a list of triggers. -/
def triggerNames (key : String) : List Document → Except DecodeFault (List String)
  | [] => .ok []
  | text name :: rest => (triggerNames key rest).map (name :: ·)
  | _ :: _ => .error (.badTrigger key)

/-- What the entries of a structured property say, a later entry replacing an earlier one. -/
structure Structured where
  field : Option String := none
  negate : Bool := false
  triggers : Option (List String) := none

/-- Read one entry of a structured property. -/
def readEntry (key : String) (s : Structured) : String × Document → Except DecodeFault Structured
  | (name, value) =>
    match value with
    | text field =>
      if name = "property" then .ok { s with field := some field } else .error (.badEntry key name)
    | flag b =>
      if name = "negate" then .ok { s with negate := b } else .error (.badEntry key name)
    | list items =>
      if name = "triggers" then (triggerNames key items).map ({ s with triggers := some · })
      else .error (.badEntry key name)
    | entries _ => .error (.badEntry key name)

/-- Read the entries of a structured property in order. -/
def readEntries (key : String) (s : Structured) :
    List (String × Document) → Except DecodeFault Structured
  | [] => .ok s
  | entry :: rest => do
    let s ← readEntry key s entry
    readEntries key s rest

/-- The property of entries that make up a structured one. -/
def structured (key : String) (members : List (String × Document)) : Except DecodeFault Property := do
  let s ← readEntries key {} members
  .ok (.structured (.field (s.field.getD "")) s.negate s.triggers)

mutual

/-- What a document binds at a key. -/
def mapValue (key : String) : Document → Except DecodeFault MapValue
  | text s => .ok (.expression s)
  | flag _ => .error (.badValue key)
  | list _ => .error (.badValue key)
  | entries members =>
    if isStructured members then (structured key members).map .property
    else (mapEntries [] members).map .nested

/-- The entries of a map decoded in order behind those already `done`. -/
def mapEntries (done : List (String × MapValue)) :
    List (String × Document) → Except DecodeFault (List (String × MapValue))
  | [] => .ok done
  | (key, value) :: rest => do
    let value ← mapValue key value
    mapEntries (BindingMap.insertEntry key value done) rest

end

end Document

namespace BindingMap

/-- The binding map of a document. -/
def ofDocument : Document → Except DecodeFault BindingMap
  | .entries members => (Document.mapEntries [] members).map (⟨·⟩)
  | _ => .error .notAnObject

/-- The binding map of a JSON text, read in a given way. What the document says is checked before what follows it. -/
def ofText (reader : Json.Reader) (s : String) : Except DecodeFault BindingMap :=
  match reader.read? s with
  | none => .error .form
  | some (json, rest) =>
    match Document.ofJson? Document.maxDepth json with
    | none => .error .form
    | some document => do
      let map ← ofDocument document
      if reader.atEnd rest then .ok map else .error .form

end BindingMap

end Databind
