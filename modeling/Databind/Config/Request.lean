import Databind.Config.Document

/-!
# `Config.Request` — settings described by data
-/

namespace Databind.Config

/-- Settings described by data: those that differ from the defaults, or the text of a JSON document. -/
inductive Request where
  | given (event : Option String) (warn auto : Option Bool)
  | json (text : String)
deriving DecidableEq

/-- The settings that a request describes. -/
def Request.build : Request → Except BindError Config
  | given event warn auto => .ok (Draft.finish ⟨event, warn, auto⟩)
  | json text => (ofText Json.reader text).mapError .undecodable

end Databind.Config
