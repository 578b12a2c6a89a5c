import Databind.Expression.Piece
import Databind.Fields

/-!
# `Expression.Template` — text with fields filled in

A template is literal text and fields in order. Rendering puts each field's text in its place; an absent
field leaves nothing.
-/

namespace Databind.Expression

/-- One part of a template. -/
inductive TemplatePart where
  | literal (text : String)
  | field (name : String)
deriving DecidableEq

/-- A text template. -/
structure Template where
  parts : List TemplatePart
deriving DecidableEq

namespace Template

/-- The template of a list of pieces; empty literals are dropped. -/
def ofPieces (pieces : List Piece) : Template :=
  ⟨pieces.filterMap fun piece =>
    match piece with
    | .literal text => if text = [] then none else some (.literal (String.ofList text))
    | .field name => some (.field name)⟩

/-- The text of one part on a record's fields. -/
def partText (fields : Fields) : TemplatePart → String
  | .literal text => text
  | .field name => if fields.has name then (fields.get name).display else ""

/-- The text on a record's fields. -/
def render (template : Template) (fields : Fields) : String :=
  String.join (template.parts.map (partText fields))

end Template

end Databind.Expression
