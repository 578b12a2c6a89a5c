import Databind.Selector.Matching
import Databind.Selector.Parser
import Databind.Store.Listening

/-!
# `Store.Query` — elements and event handlers by selector

A blank selector stands for the root itself. Any other selects elements strictly below the root, in
document order; a text that is no selector gives a notice and selects nothing.

A handler is attached for one event and one selector. An event passes from its target up to the topmost
ancestor, and at each element meets the handlers whose selector matches there.
-/

namespace Databind

/-- The elements below a root that a selector matches, in document order. -/
def Arena.matching (arena : Arena) (root : Nat) (selector : Selector) : List Nat :=
  (arena.descendants root).filter (selector.isMatch arena)

/-- Whether an event at an element meets a handler. -/
def Delegation.meets (d : Delegation) (arena : Arena) (x : Nat) : Bool :=
  match d.selector with
  | none => x == d.root
  | some selector => arena.isDescendantOf x d.root && selector.isMatch arena x

namespace Store

/-- The elements of a scope that a selector text selects. -/
def select (s : Store) (scope : Scope) (text : String) : Store × List Nat :=
  if Text.isBlankText text then (s, [scope.root])
  else
    match Selector.parse (Text.trim text) with
    | .ok selector => (s, (s.arena scope.tree).matching scope.root selector)
    | .error e => (s.log (.queryFailed e), [])

/-- Attach a handler; a text that is no selector attaches nothing. -/
def attachHandler (s : Store) (scope : Scope) (event : String) (selector : Option Selector)
    (handler : EventHandler) : Store × Guard :=
  let guard : Guard := ⟨.delegations scope.tree, (s.tree scope.tree).delegations.next⟩
  (s.modifyTree scope.tree fun t =>
    { t with delegations := t.delegations.subscribe ⟨event, selector, scope.root, handler⟩ }, guard)

/-- Attach a handler for an event on the elements that a selector text selects. -/
def delegate (s : Store) (scope : Scope) (event text : String) (handler : EventHandler) :
    Store × Option Guard :=
  if Text.isBlankText text then
    let (s, guard) := s.attachHandler scope event none handler
    (s, some guard)
  else
    match Selector.parse (Text.trim text) with
    | .ok selector =>
      let (s, guard) := s.attachHandler scope event (some selector) handler
      (s, some guard)
    | .error e => (s.log (.delegationFailed e event), none)

/-- The handlers that an event meets on its way up from a target, each with the element where it meets
it: nearest element first, in order of attachment at each. -/
def handlersMet (t : Tree) (event : String) (target : Nat) : List (Roster.Entry Delegation × Nat) :=
  (target :: t.arena.ancestors target).flatMap fun x =>
    (t.delegations.live.filter fun e => e.listener.event = event ∧ e.listener.meets t.arena x).map (·, x)

/-- Begin a dispatch: the handlers to call, pinned until `finish`. -/
def drawEvent (s : Store) (n : Nat) (event : String) (target : Nat) :
    Store × List (Roster.Entry Delegation × Nat) :=
  let met := handlersMet (s.tree n) event target
  (s.modifyTree n fun t =>
    { t with delegations := t.delegations.prune.pin (met.map (·.1.id)) }, met)

end Store

end Databind
