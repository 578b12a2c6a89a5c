import Databind.Value

/-!
# `Record.Rule` — validators of record fields

A validator is asked before every write. It gives back the value to store or a reason to refuse. A `Rule`
describes one by data, for all fields or for one.
-/

namespace Databind

/-- A validator: the value to store for a field, or a reason to refuse. -/
abbrev Validator := String → Value → Except String Value

/-- What a validator does with a value. -/
inductive Rule where
  | accept
  | reject
  | rejectNegative
  | trim
  /-- Add an exclamation mark. -/
  | bang
  | double
  | number
  | undefined
  | null
deriving DecidableEq

namespace Rule

/-- The rule of a given name; an unknown one accepts everything. -/
def ofName (name : String) : Rule :=
  match name with
  | "reject" => reject
  | "reject_negative" => rejectNegative
  | "trim" => trim
  | "bang" => bang
  | "double" => double
  | "number" => number
  | "undefined" => undefined
  | "null" => null
  | _ => accept

/-- Apply a rule to a value. -/
def apply (rule : Rule) (v : Value) : Except String Value :=
  match rule with
  | accept => .ok v
  | reject => .error "rejected"
  | rejectNegative =>
    if v.toNumber.compare (.zero false) = some .lt then .error "negative" else .ok v
  | trim => .ok (.string (Text.trim v.display))
  | bang => .ok (.string (v.display ++ "!"))
  | double => .ok (.number (v.toNumber.mul (.ofNat 2)))
  | number => .ok (.number v.toNumber)
  | undefined => .ok .undefined
  | null => .ok .null

/-- The validator of a rule, for one field or for all. -/
def validator (rule : Rule) (field : Option String) : Validator := fun name v =>
  if field.all (· = name) then rule.apply v else .ok v

end Rule

end Databind
