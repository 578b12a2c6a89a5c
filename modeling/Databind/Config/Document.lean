import Databind.Config.Basic
import Databind.Error
import Databind.Json.Reader

/-!
# `Config.Document` — settings from JSON documents

Settings come from an object, whose unknown members are ignored and whose known members stand at most
once, or from an array of up to three values in the order of the settings. What is left out keeps its
default.
-/

namespace Databind.Config

/-- The text of a JSON string. -/
def text? : Json → Option String
  | .string s => s
  | _ => none

/-- The value of a JSON flag. -/
def flag? : Json → Option Bool
  | .bool b => some b
  | _ => none

/-- The settings read so far; a setting that was not given yet is missing. -/
structure Draft where
  event : Option String := none
  warn : Option Bool := none
  auto : Option Bool := none

/-- Set a member that was not given yet. -/
def setOnce {α : Type} (old : Option α) (new : Option α) : Option (Option α) :=
  match old with
  | some _ => none
  | none => new.map some

/-- Read one member of an object. -/
def readMember (draft : Draft) : Option String × Json → Option Draft
  | (none, _) => none
  | (some key, value) =>
    if key = "default_event" then
      (setOnce draft.event (text? value)).map ({ draft with event := · })
    else if key = "warn_missing_triggers" then
      (setOnce draft.warn (flag? value)).map ({ draft with warn := · })
    else if key = "auto_render" then
      (setOnce draft.auto (flag? value)).map ({ draft with auto := · })
    else some draft

/-- Read the members of an object in order. -/
def readMembers (draft : Draft) : List (Option String × Json) → Option Draft
  | [] => some draft
  | member :: rest => (readMember draft member).bind (readMembers · rest)

/-- Read the values of an array. -/
def readItems : List Json → Option Draft
  | [] => some {}
  | [event] => do
    let event ← text? event
    some { event }
  | [event, warn] => do
    let event ← text? event
    let warn ← flag? warn
    some { event, warn }
  | [event, warn, auto] => do
    let event ← text? event
    let warn ← flag? warn
    let auto ← flag? auto
    some { event, warn, auto }
  | _ => none

/-- The settings of a draft, defaults filled in. -/
def Draft.finish (draft : Draft) : Config :=
  let default : Config := {}
  { defaultEvent := draft.event.getD default.defaultEvent
    warnMissingTriggers := draft.warn.getD default.warnMissingTriggers
    autoRender := draft.auto.getD default.autoRender }

/-- The settings in a JSON value. -/
def ofJson? : Json → Option Config
  | .object members => (readMembers {} members).map Draft.finish
  | .array items => (readItems items).map Draft.finish
  | _ => none

/-- The settings in a JSON text, read in a given way. -/
def ofText (reader : Json.Reader) (s : String) : Except DecodeFault Config :=
  match reader.read? s with
  | none => .error .form
  | some (json, rest) =>
    match ofJson? json with
    | none => .error .form
    | some config => if reader.atEnd rest then .ok config else .error .form

end Databind.Config
