import Databind.Session.Workspace
import Databind.Text.Quoted

/-!
# `Session.TreeCommand` — commands on trees and elements
-/

namespace Databind

/-- How a command names an element: by a saved name, or as the first one a selector selects. -/
inductive ElementRef where
  | saved (name : String)
  | first (tree selector : String)
deriving DecidableEq

/-- Something to see of an element. -/
inductive Aspect where
  | text
  | html
  | value
  /-- Whether it shows, its ancestors considered. -/
  | visible
  /-- Its own visibility. -/
  | flag
  | attached
  | width
  | height
  /-- Its number. -/
  | number
  | property (name : String)
  | attr (name : String)
deriving DecidableEq

/-- See an element. -/
def Arena.look (arena : Arena) (x : Nat) : Aspect → Value
  | .text => .string (arena.textContent x)
  | .html => .string (arena.html x)
  | .value => .string (arena.content x).value
  | .visible => .bool (arena.isVisible x)
  | .flag => .bool (arena.content x).visible
  | .attached => .bool (arena.isAttached x)
  | .width => .number (arena.content x).width
  | .height => .number (arena.content x).height
  | .number => .number (.ofNat x)
  | .property name => .bool ((arena.content x).property name)
  | .attr name => ((arena.content x).attribute? name).elim .null .string

/-- Change an element as a user would: texts, flags and numbers of the right kind only. An attribute set
to nothing is removed. -/
def Arena.change? (arena : Arena) (x : Nat) (aspect : Aspect) (v : Value) : Option Arena :=
  match aspect, v with
  | .text, .string t => some (arena.setText x t)
  | .html, .string t => some (arena.setHtml x t)
  | .value, .string t => some (arena.edit x fun c => { c with value := t })
  | .visible, .bool b => some (arena.edit x fun c => { c with visible := b })
  | .flag, .bool b => some (arena.edit x fun c => { c with visible := b })
  | .width, .number n => some (arena.edit x fun c => c.setDimension .width n)
  | .height, .number n => some (arena.edit x fun c => c.setDimension .height n)
  | .property name, .bool b => some (arena.edit x fun c => c.setProperty name b)
  | .attr name, .string t => some (arena.edit x fun c => c.setAttribute name (some t))
  | .attr name, .null => some (arena.edit x fun c => c.setAttribute name none)
  | _, _ => none

/-- A command on trees and elements. -/
inductive TreeCommand where
  | make (as : String) (spec : Spec)
  | subtree (as tree selector : String)
  | save (as tree selector : String) (nth : Nat)
  | select (tree selector : String)
  | append (as : String) (parent : ElementRef) (tree : String) (spec : Spec)
  | look (element : ElementRef) (aspects : List Aspect)
  | change (element : ElementRef) (aspect : Aspect) (value : Value)
  | paint (element : ElementRef) (attr : String) (value : Value)
  | readBack (element : ElementRef) (attr : String)
  | dump (tree : String) (aspects : List Aspect)
  | dispatch (tree event : String) (target : ElementRef)
  | trigger (tree event selector : String)
  | delegations (tree : String)

namespace Workspace

/-- Go on with the element that a command names, as its tree and number. -/
def withElement (w : Workspace) (ref : ElementRef)
    (go : Workspace → Nat → Nat → Workspace × List Task) : Workspace × List Task :=
  match ref with
  | .saved name =>
    match w.handle? name with
    | some (.element tree x) => go w tree x
    | _ => w.answer (.unknown name)
  | .first tree selector =>
    w.withFound (w.scope? tree) fun scope =>
      match w.store.select scope selector with
      | (store, x :: _) => go (w.withStore store) scope.tree x
      | (store, []) => (w.withStore store).answer (.noElement selector)

end Workspace

namespace TreeCommand

open Workspace

/-- Carry out a command on trees and elements. -/
def perform (w : Workspace) : TreeCommand → Workspace × List Task
  | make as spec =>
    let n := w.store.trees.size
    ((w.withStore (w.store.addTree (.ofArena (.ofSpec spec)))).assign as (.tree ⟨n, 0⟩)).answer .done
  | subtree as tree selector =>
    w.withFound (w.scope? tree) fun scope =>
      match w.store.select scope selector with
      | (store, x :: _) => ((w.withStore store).assign as (.tree ⟨scope.tree, x⟩)).answer (.node x)
      | (store, []) => (w.withStore store).answer .noNode
  | save as tree selector nth =>
    w.withFound (w.scope? tree) fun scope =>
      let (store, found) := w.store.select scope selector
      match found[nth]? with
      | some x => ((w.withStore store).assign as (.element scope.tree x)).answer (.node x)
      | none => (w.withStore store).answer .noNode
  | select tree selector =>
    w.withFound (w.scope? tree) fun scope =>
      let (store, found) := w.store.select scope selector
      (w.withStore store).answer (.nodes found)
  | append as parent tree spec =>
    w.withFound (w.scope? tree) fun scope =>
      w.withElement parent fun w _ x =>
        let child := (w.store.arena scope.tree).size
        let w := w.withStore (w.store.modifyArena scope.tree fun arena => arena.append x spec)
        (w.assign as (.element scope.tree child)).answer (.node child)
  | look element aspects =>
    w.withElement element fun w tree x =>
      w.answer (.values (aspects.map ((w.store.arena tree).look x)))
  | change element aspect value =>
    w.withElement element fun w tree x =>
      match (w.store.arena tree).change? x aspect value with
      | some arena => (w.withStore (w.store.modifyArena tree fun _ => arena)).answer .done
      | none => w.answer (.unknown "value")
  | paint element attr value =>
    w.withElement element fun w tree x =>
      (w.withStore (w.store.modifyArena tree fun arena =>
        arena.paint x (Attribute.classify attr) value)).answer .done
  | readBack element attr =>
    w.withElement element fun w tree x =>
      w.answer (.value ((w.store.arena tree).readBack x (Attribute.classify attr)))
  | dump tree aspects =>
    w.withFound (w.scope? tree) fun scope =>
      let (store, found) := w.store.select scope "*"
      let arena := store.arena scope.tree
      (w.withStore store).answer
        (.dump ((scope.root :: found).map fun x => (x, aspects.map (arena.look x))))
  | dispatch tree event target =>
    w.withFound (w.scope? tree) fun scope =>
      w.withElement target fun w _ x =>
        let (store, task, count) := w.store.fire scope.tree event x
        (w.withStore store, [task, .reply (.count count)])
  | trigger tree event selector =>
    w.withFound (w.scope? tree) fun scope =>
      let (store, found) := w.store.select scope selector
      (w.withStore store, [.trigger event scope.tree found 0])
  | delegations tree =>
    w.withFound (w.scope? tree) fun scope =>
      w.answer (.count (w.store.tree scope.tree).delegations.liveCount)

end TreeCommand

end Databind
