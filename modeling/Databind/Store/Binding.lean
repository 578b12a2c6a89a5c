import Databind.Store.Render

/-!
# `Store.Binding` — making and removing bindings

`prepare` checks a binding and touches nothing; `commit` registers a checked binding and cannot fail. The
first binding of a record subscribes the binder to the record's changes and render requests, the removal
of the last one drops both guards.

## Main definitions

* `Store.prepare`, `Store.commit`, `Store.bind` — one binding.
* `Store.unbind`, `Store.unbindAll`, `Store.detach`, `Store.release` — removal.
* `Store.onChange`, `Store.onRequest` — what a binder does when it is notified.
-/

namespace Databind

/-- Whether a binding writes back, and on which event. -/
inductive TwoWay where
  | off
  | defaultEvent
  | event (name : String)
deriving DecidableEq

/-- A checked binding. -/
structure Prepared where
  record : RecordId
  normalized : Normalized
  event : Option String
  key : BindingKey
  autoRender : Bool

namespace Store

/-- The event of a binding, the binder's default standing in. -/
def eventOf (config : Config) : TwoWay → Option String
  | .off => none
  | .defaultEvent => some config.defaultEvent
  | .event name => some name

/-- **Check a binding.** The record must be alive, the property must have a normal form, and a binding
that writes back must have a field to write to. -/
def prepare (s : Store) (n : Nat) (id : RecordId) (property : Property) (key : BindingKey)
    (twoWay : TwoWay) (autoRender : Bool) : Except BindError Prepared :=
  if !(s.record id).alive then .error (.invalidRecord id)
  else do
    let normalized ← property.normalize
    let event := eventOf (s.binder n).config twoWay
    if event.isSome && normalized.accessor.isFunction then
      .error (.invalidCombination key.selector key.attr)
    else .ok ⟨id, normalized, event, key, autoRender⟩

/-- Give a notice for every trigger that is no field of the record. -/
def warnMissing (s : Store) (config : Config) (id : RecordId) (triggers : Option (List String)) : Store :=
  if config.warnMissingTriggers then
    s.logAll (((triggers.getD []).filter fun name => !(s.fields id).has name).map (.undefinedField id))
  else s

/-- Open the entry of a record: subscribe to its changes and render requests. -/
def listen (s : Store) (n : Nat) (id : RecordId) : Store :=
  let (s, onChange) := s.subscribe (.changes id) (.repaint n id)
  let (s, onRequest) := s.subscribe (.requests id) (.repaintAll n id)
  (s.log (.attached id)).modifyRegistry n (Registry.openEntry ⟨id, [], onChange, onRequest⟩)

/-- Attach the handler that writes edits of a two-way binding back. -/
def listenBack (s : Store) (n : Nat) (p : Prepared) : Store × Option Guard :=
  match p.event, p.normalized.accessor.field? with
  | some event, some field =>
    (s.observe (.delegate event p.key.selector)).delegate (s.binder n).scope event p.key.selector
      (.writeBack ⟨p.record, field, Attribute.classify p.key.attr, p.normalized.negate⟩)
  | _, _ => (s, none)

/-- The binding of a checked one. -/
def Prepared.binding (p : Prepared) (guard : Option Guard) : Binding :=
  { record := p.record
    key := p.key
    accessor := p.normalized.accessor
    negate := p.normalized.negate
    triggers := p.normalized.triggers
    event := p.event
    guard }

/-- Register a binding in the open entry of its record; one under the same key is replaced and its
handler detached. -/
def register (s : Store) (n : Nat) (b : Binding) : Store :=
  let replaced := (s.binder n).registry.find? b.record b.key
  let s := s.modifyRegistry n (·.insert b)
  match replaced with
  | some old => (s.log (.replaced b.record b.key)).dropAll old.guard.toList
  | none => s

/-- **Put a checked binding into effect.** -/
def commit (s : Store) (n : Nat) (p : Prepared) : Store :=
  let s := s.warnMissing (s.binder n).config p.record p.normalized.triggers
  let s := if (s.binder n).registry.has p.record then s else s.listen n p.record
  let (s, guard) := s.listenBack n p
  let b := Prepared.binding p guard
  let s := s.register n b
  if p.autoRender then s.render n b else s

/-- Bind a property of a record. -/
def bind (s : Store) (n : Nat) (id : RecordId) (property : Property) (key : BindingKey)
    (twoWay : TwoWay) (autoRender : Bool) : Store × Option BindError :=
  match s.prepare n id property key twoWay autoRender with
  | .ok p => (s.commit n p, none)
  | .error e => (s, some e)

/-! ## Removal -/

/-- The guards of bindings' handlers. -/
def handlerGuards (bindings : List Binding) : List Guard := bindings.filterMap (·.guard)

/-- All guards that an entry owns. -/
def entryGuards (e : Registry.Entry) : List Guard := handlerGuards e.bindings ++ [e.onChange, e.onRequest]

/-- Remove a binding that is there, and the entry with it if it was the last. -/
def removeBinding (s : Store) (n : Nat) (id : RecordId) (key : BindingKey) : Store :=
  let registry := (s.binder n).registry
  let guards := handlerGuards (registry.find? id key).toList ++
    if registry.isLast id key then
      ((registry.entryOf? id).map fun e => [e.onChange, e.onRequest]).getD []
    else []
  (s.modifyRegistry n (·.remove id key)).dropAll guards

/-- Remove the binding of a record under a key. -/
def unbind (s : Store) (n : Nat) (id : RecordId) (key : BindingKey) : Store :=
  let registry := (s.binder n).registry
  if !registry.has id then s.log (.noActiveBindings id)
  else if (registry.find? id key).isNone then s.log (.noMatchingBinding id key)
  else
    let s := s.log (.unbound id key)
    let s := if registry.isLast id key then s.log (.detached id) else s
    s.removeBinding n id key

/-- Remove every binding of a record, or of every record. -/
def unbindAll (s : Store) (n : Nat) (id : Option RecordId) : Store :=
  let registry := (s.binder n).registry
  let closed := registry.filter fun e => id.all (e.record = ·)
  let s := s.modifyRegistry n fun registry => registry.filter fun e => !id.all (e.record = ·)
  (s.logAll (closed.map fun e => .detachedAll e.record e.bindings.length)).dropAll
    (closed.flatMap entryGuards)

/-- Drop the guards on collections. -/
def leaveCollections (s : Store) (n : Nat) : Store :=
  let guards := (s.binder n).collectionGuards
  (s.modifyBinder n fun b => { b with collectionGuards := [] }).dropAll guards

/-- Remove every binding and stop listening to collections. -/
def detach (s : Store) (n : Nat) : Store :=
  let s := s.unbindAll n none
  let count := (s.binder n).collectionGuards.length
  let s := if count = 0 then s else s.log (.detachedCollections count)
  s.leaveCollections n

/-- Remove the bindings under some keys that are still there, and stop listening to collections if
asked to. -/
def release (s : Store) (n : Nat) (keys : List (RecordId × BindingKey)) (collections : Bool) : Store :=
  let (s, count) := keys.foldl
    (fun (s, count) (id, key) =>
      if ((s.binder n).registry.find? id key).isSome then (s.removeBinding n id key, count + 1)
      else (s, count)) (s, 0)
  let s := s.log (.released count)
  if collections then s.leaveCollections n else s

/-- The last handle of a binder is gone: its bindings and guards go too, without a notice. -/
def retire (s : Store) (n : Nat) : Store :=
  let b := s.binder n
  (s.modifyBinder n fun b => { b with registry := [], collectionGuards := [], retired := true }).dropAll
    (b.registry.flatMap entryGuards ++ b.collectionGuards)

/-! ## Notifications -/

/-- A record changed: render the bindings that the change triggers. -/
def onChange (s : Store) (n : Nat) (id : RecordId) (changed : ChangeSet) : Store :=
  let bindings := (s.binder n).registry.bindingsOf id
  if bindings.isEmpty then s.log (.noBindings id)
  else s.renderAll n (bindings.filter (·.isTriggeredBy changed))

/-- A record asked to be rendered: render all its bindings. -/
def onRequest (s : Store) (n : Nat) (id : RecordId) : Store :=
  let bindings := (s.binder n).registry.bindingsOf id
  (s.log (.forcedRender id bindings.length)).renderAll n bindings

/-- Render the bindings of a record, or of every record. -/
def renderBindings (s : Store) (n : Nat) (id : Option RecordId) : Store :=
  let registry := (s.binder n).registry
  s.renderAll n (match id with
    | some id => registry.bindingsOf id
    | none => registry.bindings)

/-- A binder as a snapshot shows it. -/
def binderInfo (s : Store) (n : Nat) : BinderInfo :=
  let b := s.binder n
  { records := b.registry.map fun e =>
      { record := e.record
        bindings := e.bindings.map fun x =>
          { key := x.key, triggers := x.triggers, negate := x.negate, event := x.event } }
    collectionListeners := b.collectionGuards.length }

end Store

end Databind
