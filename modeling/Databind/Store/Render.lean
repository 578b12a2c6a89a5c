import Databind.Store.Query
import Databind.Tree.Paint

/-!
# `Store.Render` — showing bindings on their elements

Rendering a binding asks its binder's tree for the elements its selector selects, computes the value once,
and paints it on each of them in turn. Without elements it gives a notice.
-/

namespace Databind.Store

/-- Paint a value on elements of a tree. -/
def paintAll (arena : Arena) (target : Attribute) (v : Value) (elements : List Nat) : Arena :=
  elements.foldl (fun arena x => arena.paint x target v) arena

/-- Render a binding of a binder. -/
def render (s : Store) (n : Nat) (b : Binding) : Store :=
  let scope := (s.binder n).scope
  let (s, elements) := (s.observe (.query b.key.selector)).select scope b.key.selector
  if elements = [] then s.log (.noElement b.record b.key)
  else
    let v := b.value (s.fields b.record)
    (s.log (.rendered b.record b.key v elements.length)).modifyArena scope.tree
      fun arena => paintAll arena b.target v elements

/-- Render bindings of a binder in order. -/
def renderAll (s : Store) (n : Nat) (bindings : List Binding) : Store :=
  bindings.foldl (fun s b => s.render n b) s

end Databind.Store
