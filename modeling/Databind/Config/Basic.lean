/-!
# `Config.Basic` — the settings of a binder
-/

namespace Databind

/-- The settings of a binder. -/
structure Config where
  /-- The event of two-way bindings declared without one. -/
  defaultEvent : String := "change"
  /-- Whether binding to a field that does not exist gives a notice. -/
  warnMissingTriggers : Bool := true
  /-- Whether attached bindings paint at once unless told otherwise. -/
  autoRender : Bool := true
deriving DecidableEq

end Databind
