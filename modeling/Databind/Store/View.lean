import Databind.Store.Attach

/-!
# `Store.View` — views that own what they mounted

Mounting a view attaches its map to its source without rendering. From then on the view owns the bindings
and the collection listeners of that mount, and unmounting removes no others.
-/

namespace Databind.Store

/-- Mount a view. A mount that attaches nothing leaves what the view owns as it was. -/
def mount (s : Store) (v : Nat) : Store × Option BindError :=
  let view := s.view v
  match s.attach view.binder view.source view.bindings (some false) with
  | (s, some e) => (s, some e)
  | (s, none) =>
    if view.bindings.isEmpty || view.source = .none then (s, none)
    else
      let owned := (s.binder view.binder).keys
      (s.modifyView v fun x => { x with owned, ownsCollection := view.source.isCollection }, none)

/-- Unmount a view: release what it owns. -/
def unmount (s : Store) (v : Nat) : Store :=
  let view := s.view v
  let s := s.modifyView v fun x => { x with owned := [], ownsCollection := false }
  if view.isMounted then s.release view.binder view.owned view.ownsCollection else s

/-- How a source is shown. -/
def sourceText (s : Store) : Source → String
  | .none => "None"
  | .record id => "Record(" ++ id.display ++ ")"
  | .collection c => "Collection(len=" ++ toString (s.collection c).members.length ++ ")"

end Databind.Store
