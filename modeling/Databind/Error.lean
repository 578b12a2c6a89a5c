import Databind.Expression.Compile
import Databind.Record.Id

/-!
# `Error` — why a binding cannot be made

Only misconfiguration is an error: a destroyed record, a property without a field, a computed property
bound in both directions, an expression, a key or a map that cannot be read. Conditions that a later
change may repair (no element for a selector, a field that does not exist yet) are notices instead.
-/

namespace Databind

/-- What is wrong with a property. -/
inductive PropertyFault where
  /-- A blank field name. -/
  | emptyField
  /-- A structured property around something that is neither a field nor a function. -/
  | nested
deriving DecidableEq

/-- Why a document is no binding map or configuration. -/
inductive DecodeFault where
  /-- The text does not have the form that is read. -/
  | form
  /-- The document is not an object. -/
  | notAnObject
  /-- A value that is neither a text nor an object. -/
  | badValue (key : String)
  /-- A trigger that is no text. -/
  | badTrigger (key : String)
  /-- An entry of a structured property with a value of the wrong kind. -/
  | badEntry (key entry : String)
deriving DecidableEq

/-- Why a binding cannot be made. -/
inductive BindError where
  | invalidRecord (record : RecordId)
  | invalidProperty (fault : PropertyFault)
  | invalidCombination (selector attr : String)
  | expression (error : Expression.Error)
  | noSuchMember (key : String)
  | invalidDescriptor (text : String)
  /-- A nested map where a property has to stand. -/
  | misplacedMap (descriptor : String)
  | undecodable (fault : DecodeFault)
deriving DecidableEq

namespace PropertyFault

def message : PropertyFault → String
  | emptyField => "field name is empty"
  | nested => "structured property must wrap a field name or a function"

end PropertyFault

namespace DecodeFault

def message : DecodeFault → String
  | form => "malformed document"
  | notAnObject => "binding map must be an object"
  | badValue key => "'" ++ key ++ "': expected a string or an object"
  | badTrigger key => "'" ++ key ++ "': triggers must be strings"
  | badEntry key entry => "'" ++ key ++ "': invalid '" ++ entry ++ "' entry"

end DecodeFault

namespace BindError

/-- The wording of an error. -/
def message : BindError → String
  | invalidRecord record => "record " ++ record.display ++ " is not a live observable record"
  | invalidProperty fault => "invalid property spec: " ++ fault.message
  | invalidCombination selector attr =>
    "computed property cannot be bound bidirectionally ('[" ++ attr ++ "]" ++ selector ++ "')"
  | expression error => error.message
  | noSuchMember key => "no collection member matches '" ++ key ++ "'"
  | invalidDescriptor text => "invalid binding descriptor '" ++ text ++ "'"
  | misplacedMap descriptor =>
    "invalid value for '" ++ descriptor ++ "': nested maps are only valid under a collection"
  | undecodable fault => "config error: " ++ fault.message

end BindError

end Databind
