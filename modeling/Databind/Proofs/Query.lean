import Databind.Proofs.Possession

/-!
# `Proofs.Query` — what binders ask their trees for

A binder asks its tree for elements by selector when it renders a binding, and when a command has it ask. Rendering is
among its deeds, so the selectors of a run are read off the deeds and the commands.

## Main definitions

* `Machine.queries` — the selectors that a binder asks its tree for in a run.
-/

namespace Databind

/-- The selector that a binder asks its tree for. -/
def Act.query? : Act → Option String
  | .rendered x _ => some x.key.selector
  | _ => none

/-- The selectors that a binder asks its tree for to render. -/
def queriesOf (n : Nat) (ds : List Deed) : List String := (actsOf n ds).filterMap Act.query?

/-- A selector, if the binder that was looked up is the given one. -/
def queryTo (n : Nat) (selector : String) : Except Outcome Nat → List String
  | .ok m => if m = n then [selector] else []
  | .error _ => []

/-- The selector that a command has a binder ask its tree for. -/
def Command.queries (w : Workspace) (n : Nat) : Command → List String
  | .act (.binder (.query binder selector)) => queryTo n selector (w.binder? binder)
  | _ => []

namespace Machine

/-- The selectors that a binder asks its tree for in a turn. -/
def turnQueries (n : Nat) (m : Machine) (t : Turn) : List String :=
  (m.commandOf t).elim [] (·.queries m.session.workspace n) ++ queriesOf n (m.turnDeeds t)

/-- **The selectors that a binder asks its tree for in a run**, in order. -/
def queries (n : Nat) (m : Machine) : List Turn → List String
  | [] => []
  | t :: rest => m.turnQueries n t ++ (m.turn? t).elim [] (·.queries n rest)

theorem queries_cons {m next : Machine} {t : Turn} (h : m.turn? t = some next) (n : Nat) (rest : List Turn) :
    m.queries n (t :: rest) = m.turnQueries n t ++ next.queries n rest := by
  rw [queries, h]
  rfl

/-- What is asked in a run is what is asked in its parts, one after the other. -/
theorem queries_append {m m' : Machine} {before : List Turn} (h : m.walk? before = some m') (n : Nat)
    (behind : List Turn) : m.queries n (before ++ behind) = m.queries n before ++ m'.queries n behind := by
  induction before generalizing m with
  | nil => cases h; rfl
  | cons t rest ih =>
    obtain ⟨next, hturn, h⟩ := walk?_cons h
    rw [List.cons_append, queries_cons hturn, queries_cons hturn, ih h, List.append_assoc]

end Machine

end Databind
