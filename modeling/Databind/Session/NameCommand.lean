import Databind.Session.Workspace
import Databind.Text.Quoted

/-!
# `Session.NameCommand` — commands on names and free lists

A free list holds listeners of the host alone; whatever text is emitted on it reaches them all. Any name
can be dropped, and what it denotes can be shown as a diagnostic text (`Handle.inspect`).
-/

namespace Databind

/-- A command on free lists of listeners, and on names. -/
inductive NameCommand where
  | makeList (as : String)
  | emit (list text : String)
  | clear (list : String)
  | listState (list : String)
  | drop (name : String)
  | inspect (name : String)
deriving DecidableEq

/-! ## Diagnostic texts -/

namespace Handle

/-- The attributes of an element in a diagnostic. -/
def attributesText (attributes : Dict String) : String :=
  "\x7b" ++ ", ".intercalate
    (attributes.entries.map fun (name, value) => Text.quoted name ++ ": " ++ Text.quoted value) ++ "\x7d"

/-- Named parts of an object in a diagnostic. -/
def partsText (name : String) (parts : List (String × String)) : String :=
  name ++ " \x7b " ++ ", ".intercalate (parts.map fun (key, value) => key ++ ": " ++ value) ++ " \x7d"

/-- A flag in a diagnostic. -/
def flagText (b : Bool) : String := if b then "true" else "false"

/-- The settings of a binder in a diagnostic. -/
def configText (c : Config) : String :=
  partsText "BinderConfig"
    [("default_event", Text.quoted c.defaultEvent),
      ("warn_missing_triggers", flagText c.warnMissingTriggers), ("auto_render", flagText c.autoRender)]

/-- An object in a diagnostic. -/
def inspect (s : Store) : Handle → String
  | .tree scope =>
    partsText "HeadlessTree"
      [("root", toString scope.root), ("nodes", toString (s.arena scope.tree).size),
        ("delegations", toString (s.tree scope.tree).delegations.liveCount)]
  | .element n x =>
    let c := (s.arena n).content x
    partsText "HeadlessElement"
      [("node", toString x), ("tag", Text.quoted c.tag), ("attributes", attributesText c.attributes)]
  | .record id => "Record(" ++ id.display ++ ")"
  | .collection n =>
    let ids := (s.collection n).members.map fun id => "RecordId(" ++ toString id.number ++ ")"
    partsText "Collection" [("members", "[" ++ ", ".intercalate ids ++ "]")]
  | .binder n =>
    let b := s.binder n
    "Binder \x7b config: " ++ configText b.config ++ ", records: " ++ toString b.registry.length ++
      ", .. \x7d"
  | .list n => partsText "Listeners" [("len", toString (s.list n).size)]
  | .subscription _ => "Subscription \x7b .. \x7d"
  | .view _ => "BoundView"

end Handle

namespace NameCommand

open Workspace

/-- Carry out a command on free lists and names. -/
def perform (w : Workspace) : NameCommand → Workspace × List Task
  | makeList as =>
    let n := w.store.lists.size
    ((w.withStore w.store.addList).assign as (.list n)).answer .done
  | emit list text =>
    w.withFound (w.list? list) fun n =>
      let (store, task) := w.store.notify (.list n) (.emitted text)
      (w.withStore store, [task, .reply .done])
  | clear list =>
    w.withFound (w.list? list) fun n => (w.withStore (w.store.modifyList n Roster.clear)).answer .done
  | listState list =>
    w.withFound (w.list? list) fun n =>
      let r := w.store.list n
      w.answer (.listState r.size r.liveCount)
  | drop name =>
    let (w, existed) := w.forget name
    w.answer (.flag existed)
  | inspect name =>
    match w.handle? name with
    | some h => w.answer (.text (h.inspect w.store))
    | none => w.answer (.unknown name)

end NameCommand

end Databind
