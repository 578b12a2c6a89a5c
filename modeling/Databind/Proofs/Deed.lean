import Databind.Session.Machine

/-!
# `Proofs.Deed` — what is done to binders and records

A deed is something done to a binder or to a record, whoever asked for it: the host, a script of a callback,
or a notification. The deeds of an operation are read off the state in which it begins, and say nothing of how
a binder keeps its registry and its guards. What a registry holds after a run is then said by the deeds alone:
`standing` are the bindings that no later deed replaces or takes away.

What is done to trees is no deed, with one exception: `Deed.strayed` marks what no tree that is built from descriptions
comes by, the appending to an element that the tree does not have.

## Main definitions

* `Act`, `Deed` — what can be done.
* `standing` — the bindings of a record that a list of acts leaves, in the order of their last binding.
* `Store.attachDeeds`, `Store.reactDeeds`, …, `Session.deeds`, `Machine.stepDeeds` — the deeds of each
  operation, of a command, and of a step.
-/

namespace Databind

/-- A binding without the guard of its handler. -/
def Binding.unguarded (b : Binding) : Binding := { b with guard := none }

/-- Something done to a binder. -/
inductive Act where
  /-- The binder was made. -/
  | made
  /-- A checked binding was put into effect. -/
  | bound (p : Prepared)
  /-- Whatever stood under a key of a record was removed. -/
  | removed (id : RecordId) (key : BindingKey)
  /-- Every binding of a record, or of every record, was removed. -/
  | cleared (id : Option RecordId)
  /-- The binder began to listen to a collection. -/
  | joined (c : Nat)
  /-- The binder stopped listening to collections. -/
  | left
  /-- The last handle of the binder was dropped. -/
  | retired
  /-- A listener of the binder heard a notification. -/
  | heard (l : Listener) (signal : Signal)
  /-- A binding was rendered; the fields are those its accessor saw. -/
  | rendered (b : Binding) (fields : Fields)

/-- Something done to a binder, to a record or to a tree, or with the journal. -/
inductive Deed where
  | act (n : Nat) (a : Act)
  /-- A batch of writes was carried out on a record. -/
  | wrote (id : RecordId)
  | destroyed (id : RecordId)
  /-- An element was appended to one that its tree does not have. -/
  | strayed (k : Nat)
  /-- The journal was read, and emptied. -/
  | read

/-- What was done to one binder. -/
def actsOf (n : Nat) (deeds : List Deed) : List Act :=
  deeds.filterMap fun
    | .act m a => if m = n then some a else none
    | _ => none

/-! ## Standing bindings -/

/-- Whether an act takes away what stands under a key of a record, to replace it or for good. -/
def Act.undoes (id : RecordId) (key : BindingKey) : Act → Bool
  | .bound p => p.record = id && p.key = key
  | .removed id' key' => id' = id && key' = key
  | .cleared id' => id'.all (· = id)
  | .retired => true
  | _ => false

/-- **The bindings of a record that stand after a list of acts**: those put into effect and not undone
since, in the order in which they were put into effect. -/
def standing (id : RecordId) : List Act → List Prepared
  | [] => []
  | .bound p :: later =>
    if p.record = id ∧ later.all (fun a => !a.undoes id p.key) then p :: standing id later
    else standing id later
  | _ :: later => standing id later

theorem actsOf_append (n : Nat) (a b : List Deed) : actsOf n (a ++ b) = actsOf n a ++ actsOf n b :=
  List.filterMap_append

theorem standing_cons (id : RecordId) (a : Act) (later : List Act) :
    standing id (a :: later) =
      (standing id [a]).filter (fun p => later.all fun a => !a.undoes id p.key) ++ standing id later := by
  cases a with
  | bound p =>
    by_cases hid : p.record = id
    · by_cases hlater : later.all (fun a => !a.undoes id p.key) = true <;> simp [standing, hid, hlater]
    · simp [standing, hid]
  | _ => simp [standing]

/-- **Of what stood, what is done later undoes some; what it binds itself comes behind.** -/
theorem standing_append (id : RecordId) (a b : List Act) :
    standing id (a ++ b) =
      (standing id a).filter (fun p => b.all fun a => !a.undoes id p.key) ++ standing id b := by
  induction a with
  | nil => simp [standing]
  | cons x rest ih =>
    rw [List.cons_append, standing_cons, ih, standing_cons id x rest, List.filter_append, List.filter_filter,
      List.append_assoc]
    simp only [List.all_append, Bool.and_comm]

/-- The bindings that stand are of the record asked for. -/
theorem record_of_mem_standing {id : RecordId} {acts : List Act} {p : Prepared}
    (h : p ∈ standing id acts) : p.record = id := by
  induction acts with
  | nil => simp [standing] at h
  | cons a rest ih =>
    rw [standing_cons] at h
    rcases List.mem_append.mp h with h | h
    · have hmem := (List.mem_filter.mp h).1
      cases a with
      | bound q =>
        by_cases hid : q.record = id
        · simp only [standing, hid, List.all_nil, and_self, if_true, List.mem_singleton] at hmem
          rw [hmem]
          exact hid
        · simp [standing, hid] at hmem
      | _ => simp [standing] at hmem
    · exact ih h

/-! ## Deeds of a store's operations -/

namespace Store

variable (s : Store)

/-- Rendering bindings of a binder in order. -/
def renderDeeds (n : Nat) (bindings : List Binding) : List Deed :=
  bindings.map fun b => .act n (.rendered b.unguarded (s.fields b.record))

/-- Appending to an element. Only if the tree does not have it is this a deed: an element of another tree has the number
of one of this tree, or of none. -/
def strayDeeds (k x : Nat) : List Deed := if x < (s.arena k).size then [] else [.strayed k]

/-- Putting a checked binding into effect. -/
def commitDeeds (n : Nat) (p : Prepared) : List Deed :=
  .act n (.bound p) :: if p.autoRender then s.renderDeeds n [Prepared.binding p none] else []

def bindDeeds (n : Nat) (id : RecordId) (property : Property) (key : BindingKey) (twoWay : TwoWay)
    (autoRender : Bool) : List Deed :=
  match s.prepare n id property key twoWay autoRender with
  | .ok p => s.commitDeeds n p
  | .error _ => []

/-- Removing everything and leaving all collections. -/
def detachDeeds (n : Nat) : List Deed := [.act n (.cleared none), .act n .left]

/-- Everything a map asks for under a source, checked. -/
def checked (n : Nat) (source : Source) (map : BindingMap) (autoRender : Bool) :
    Except BindError (List Prepared) :=
  match source with
  | .none => .ok []
  | .record id => s.prepareRecord n autoRender id map.entries
  | .collection c => do
    let plan ← s.expand c map (s.binder n).config.defaultEvent
    s.preparePlan n autoRender plan

/-- Listening to a source, if it is a collection. -/
def joinDeeds (n : Nat) : Source → List Deed
  | .collection c => [.act n (.joined c)]
  | _ => []

/-- Attaching a map: all of it replaces everything, or nothing happens. -/
def attachDeeds (n : Nat) (source : Source) (map : BindingMap) (autoRender : Option Bool) : List Deed :=
  if map.isEmpty || source = .none then []
  else
    match s.checked n source map (autoRender.getD (s.binder n).config.autoRender) with
    | .ok ps => detachDeeds n ++ ps.flatMap (s.commitDeeds n) ++ joinDeeds n source
    | .error _ => []

/-- Releasing keys, and the collections if asked to. -/
def releaseDeeds (n : Nat) (keys : List (RecordId × BindingKey)) (collections : Bool) : List Deed :=
  (keys.map fun (id, key) => .act n (.removed id key)) ++ if collections then [.act n .left] else []

def mountDeeds (v : Nat) : List Deed :=
  let view := s.view v
  s.attachDeeds view.binder view.source view.bindings (some false)

def unmountDeeds (v : Nat) : List Deed :=
  let view := s.view v
  if view.isMounted then releaseDeeds view.binder view.owned view.ownsCollection else []

def renderBindingsDeeds (n : Nat) (id : Option RecordId) : List Deed :=
  let registry := (s.binder n).registry
  s.renderDeeds n (match id with
    | some id => registry.bindingsOf id
    | none => registry.bindings)

/-- A batch of writes; a destroyed record ignores it. -/
def writeDeeds (id : RecordId) : List Deed := if (s.record id).alive then [.wrote id] else []

/-- A binder hears a notification; a retired one hears nothing. -/
def reactDeeds (listener : Listener) (signal : Signal) : List Deed :=
  let heard (n : Nat) (deeds : List Deed) : List Deed :=
    if (s.binder n).retired then [] else .act n (.heard listener signal) :: deeds
  match listener, signal with
  | .repaint n id, .changed set =>
    heard n (s.renderDeeds n (((s.binder n).registry.bindingsOf id).filter (·.isTriggeredBy set)))
  | .repaintAll n id, .render => heard n (s.renderDeeds n ((s.binder n).registry.bindingsOf id))
  | .dropMember n, .removed id => heard n [.act n (.cleared (some id))]
  | .dropAll n, .reset => heard n (detachDeeds n)
  | _, _ => []

end Store

/-! ## Deeds of a workspace's operations -/

namespace Workspace

variable (w : Workspace)

def retireDeeds (n : Nat) : List Deed :=
  if w.names.any fun entry => reaches w.store n entry.2 then [] else [.act n .retired]

/-- A name stops denoting an object. -/
def letGoDeeds : Handle → List Deed
  | .binder n => w.retireDeeds n
  | .view v =>
    w.store.unmountDeeds v ++ retireDeeds { w with store := w.store.unmount v } (w.store.view v).binder
  | _ => []

def assignDeeds (name : String) (h : Handle) : List Deed :=
  (w.handle? name).elim [] (letGoDeeds { w with names := (name, h) :: w.names.filter (·.1 ≠ name) })

def forgetDeeds (name : String) : List Deed :=
  (w.handle? name).elim [] (letGoDeeds { w with names := w.names.filter (·.1 ≠ name) })

/-- The deeds after a lookup; none if nothing is found. -/
def foundDeeds {ε α : Type} (found : Except ε α) (go : α → List Deed) : List Deed :=
  match found with
  | .ok a => go a
  | .error _ => []

/-- The deeds on the element that a command names. -/
def elementDeeds (ref : ElementRef) (go : Workspace → Nat → Nat → List Deed) : List Deed :=
  match ref with
  | .saved name =>
    match w.handle? name with
    | some (.element tree x) => go w tree x
    | _ => []
  | .first tree selector =>
    foundDeeds (w.scope? tree) fun scope =>
      match w.store.select scope selector with
      | (store, x :: _) => go (w.withStore store) scope.tree x
      | (_, []) => []

end Workspace

/-! ## Deeds of commands -/

open Workspace

def RecordCommand.deeds (w : Workspace) : RecordCommand → List Deed
  | make as fields =>
    (w.withStore (w.store.addRecord (.ofFields (.ofEntries fields)))).assignDeeds as
      (.record w.store.nextRecord)
  | write record _ => foundDeeds (w.record? record) w.store.writeDeeds
  | destroy record => foundDeeds (w.record? record) fun id => [.destroyed id]
  | _ => []

def CollectionCommand.deeds (w : Workspace) : CollectionCommand → List Deed
  | make as members =>
    foundDeeds (w.records? members) fun ids =>
      (w.withStore (w.store.addCollection (.ofMembers ids))).assignDeeds as
        (.collection w.store.collections.size)
  | _ => []

def BinderCommand.deeds (w : Workspace) : BinderCommand → List Deed
  | make as tree config =>
    foundDeeds (w.scope? tree) fun scope =>
      foundDeeds config.build fun config =>
        let n := w.store.binders.size
        .act n .made ::
          (w.withStore (w.store.addBinder (.ofScope scope config))).assignDeeds as (.binder n)
  | clone as binder => foundDeeds (w.binder? binder) fun n => w.assignDeeds as (.binder n)
  | bind binder record property key twoWay autoRender =>
    foundDeeds (w.binder? binder) fun n =>
      foundDeeds (w.record? record) fun id =>
        foundDeeds property.build fun property => w.store.bindDeeds n id property key twoWay autoRender
  | unbind binder record key =>
    foundDeeds (w.binder? binder) fun n =>
      foundDeeds (w.recordRef? record) fun id => [.act n (.removed id key)]
  | unbindAll binder record =>
    foundDeeds (w.binder? binder) fun n =>
      foundDeeds (w.optionalRecord? record) fun id => [.act n (.cleared id)]
  | render binder record =>
    foundDeeds (w.binder? binder) fun n =>
      foundDeeds (w.optionalRecord? record) fun id => w.store.renderBindingsDeeds n id
  | attach binder source map autoRender =>
    foundDeeds (w.binder? binder) fun n =>
      foundDeeds (w.source? source) fun source =>
        foundDeeds map.build fun map => w.store.attachDeeds n source map autoRender
  | detach binder => foundDeeds (w.binder? binder) Store.detachDeeds
  | _ => []

/-- A new view under a name. -/
def ViewCommand.placeDeeds (w : Workspace) (as : String) (n : Nat) (source : Source) (map : BindingMap) :
    List Deed :=
  (w.withStore (w.store.addView (.ofBinder n source map))).assignDeeds as (.view w.store.views.size)

def ViewCommand.deeds (w : Workspace) : ViewCommand → List Deed
  | make as host source map =>
    foundDeeds (w.source? source) fun source =>
      match host with
      | .shared binder =>
        foundDeeds (w.binder? binder) fun n =>
          foundDeeds map.build fun map => placeDeeds w as n source map
      | .fresh tree config =>
        foundDeeds (w.scope? tree) fun scope =>
          foundDeeds config.build fun config =>
            foundDeeds map.build fun map =>
              let n := w.store.binders.size
              .act n .made ::
                placeDeeds (w.withStore (w.store.addBinder (.ofScope scope config))) as n source map
  | mount view => foundDeeds (w.view? view) w.store.mountDeeds
  | unmount view => foundDeeds (w.view? view) w.store.unmountDeeds
  | render view =>
    foundDeeds (w.view? view) fun v => w.store.renderBindingsDeeds (w.store.view v).binder none
  | handle as view =>
    foundDeeds (w.view? view) fun v => w.assignDeeds as (.binder (w.store.view v).binder)
  | _ => []

def TreeCommand.deeds (w : Workspace) : TreeCommand → List Deed
  | make as spec =>
    (w.withStore (w.store.addTree (.ofArena (.ofSpec spec)))).assignDeeds as (.tree ⟨w.store.trees.size, 0⟩)
  | subtree as tree selector =>
    foundDeeds (w.scope? tree) fun scope =>
      match w.store.select scope selector with
      | (store, x :: _) => (w.withStore store).assignDeeds as (.tree ⟨scope.tree, x⟩)
      | (_, []) => []
  | save as tree selector nth =>
    foundDeeds (w.scope? tree) fun scope =>
      let (store, found) := w.store.select scope selector
      match found[nth]? with
      | some x => (w.withStore store).assignDeeds as (.element scope.tree x)
      | none => []
  | append as parent tree spec =>
    foundDeeds (w.scope? tree) fun scope =>
      w.elementDeeds parent fun w _ x =>
        w.store.strayDeeds scope.tree x ++
          (w.withStore (w.store.modifyArena scope.tree fun arena => arena.append x spec)).assignDeeds as
            (.element scope.tree (w.store.arena scope.tree).size)
  | _ => []

def NameCommand.deeds (w : Workspace) : NameCommand → List Deed
  | makeList as => (w.withStore w.store.addList).assignDeeds as (.list w.store.lists.size)
  | drop name => w.forgetDeeds name
  | _ => []

def Action.deeds (w : Workspace) : Action → List Deed
  | tree command => command.deeds w
  | record command => command.deeds w
  | collection command => command.deeds w
  | binder command => command.deeds w
  | view command => command.deeds w
  | name command => command.deeds w

/-- **The deeds of a command**, those of what it leaves to do left out. -/
def Session.deeds (s : Session) : Command → List Deed
  | .act action => action.deeds s.workspace
  | .listen site as _ _ _ =>
    foundDeeds (s.workspace.subscribeAt s.callbacks.length site) fun (store, guard) =>
      (s.workspace.withStore store).assignDeeds as (.subscription guard)

/-- A handler meets an event. -/
def Session.meetDeeds (s : Session) : EventHandler → List Deed
  | .callback _ => []
  | .writeBack context => s.workspace.store.writeDeeds context.record

/-- **The deeds of a step.** -/
def Machine.stepDeeds (m : Machine) : List Deed :=
  match m.stack with
  | .script (c :: _) :: _ => m.session.deeds c
  | .task (.notify _ _ signal (listener :: _)) :: _ =>
    m.session.workspace.store.reactDeeds listener signal
  | .task (.dispatch _ _ _ ((handler, _) :: _)) :: _ => m.session.meetDeeds handler
  | _ => []

end Databind
