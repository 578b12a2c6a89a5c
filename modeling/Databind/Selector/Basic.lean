/-!
# `Selector` — selectors of elements

A selector is a list of alternatives. An alternative is a chain of compounds, each joined to the chain on
its left as a child or as a descendant; a chain has at least one compound. A compound is a conjunction of
conditions on one element.
-/

namespace Databind

namespace Selector

/-- How a compound is joined to the chain on its left. -/
inductive Combinator where
  | descendant
  | child
deriving DecidableEq

/-- Conditions on one element; all of them have to hold. -/
structure Compound where
  /-- Whether `*` was written; it asks for nothing. -/
  universal : Bool := false
  tag : Option String := none
  id : Option String := none
  classes : List String := []
  /-- Attributes that have to be there, each perhaps with its value. -/
  attributes : List (String × Option String) := []
  /-- The position among the siblings of the same tag, from one. -/
  position : Option Nat := none
deriving DecidableEq

/-- One condition as it is written behind a tag. -/
inductive Qualifier where
  | id (name : String)
  | className (name : String)
  | attr (name : String) (value : Option String)
  | position (n : Nat)
deriving DecidableEq

/-- The compound with one more condition. A later identifier or position replaces an earlier one. -/
def Compound.add (compound : Compound) : Qualifier → Compound
  | .id name => { compound with id := some name }
  | .className name => { compound with classes := compound.classes ++ [name] }
  | .attr name value => { compound with attributes := compound.attributes ++ [(name, value)] }
  | .position n => { compound with position := some n }

/-- A chain of compounds, from left to right. -/
inductive Complex where
  | compound (c : Compound)
  | join (left : Complex) (combinator : Combinator) (right : Compound)
deriving DecidableEq

end Selector

/-- A selector: an element matches when it matches one of the alternatives. -/
structure Selector where
  alternatives : List Selector.Complex
deriving DecidableEq

namespace Selector

/-- Why a text is no selector. -/
inductive Fault where
  | emptySelector
  | danglingChild
  | unexpectedCharacter
  | missingCombinator
  | emptyId
  | emptyClass
  | unterminatedAttribute
  | emptyAttributeName
  | unsupportedPseudoClass
  | unterminatedPseudoClass
  | badPosition
deriving DecidableEq

/-- The wording of a fault. -/
def Fault.reason : Fault → String
  | emptySelector => "empty selector"
  | danglingChild => "dangling child combinator"
  | unexpectedCharacter => "unexpected character"
  | missingCombinator => "missing combinator"
  | emptyId => "empty id"
  | emptyClass => "empty class"
  | unterminatedAttribute => "unterminated attribute selector"
  | emptyAttributeName => "empty attribute name"
  | unsupportedPseudoClass => "unsupported pseudo-class"
  | unterminatedPseudoClass => "unterminated pseudo-class"
  | badPosition => "nth-of-type expects a positive integer"

/-- A text that is no selector. -/
structure Error where
  text : String
  fault : Fault
deriving DecidableEq

/-- The wording of an error. -/
def Error.message (e : Error) : String :=
  "invalid selector '" ++ e.text ++ "': " ++ e.fault.reason

end Selector

end Databind
