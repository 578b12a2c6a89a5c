import Databind.BindingMap.Request
import Databind.Config.Request
import Databind.Session.RecordCommand
import Databind.Text.Quoted

/-!
# `Session.BinderCommand` — commands on binders and views
-/

namespace Databind

/-- What a command attaches to. -/
inductive SourceRef where
  | none
  | record (name : String)
  | collection (name : String)
deriving DecidableEq

/-- A command on a binder. -/
inductive BinderCommand where
  | make (as tree : String) (config : Config.Request)
  | clone (as binder : String)
  | bind (binder record : String) (property : Property.Request) (key : BindingKey) (twoWay : TwoWay)
      (autoRender : Bool)
  | unbind (binder : String) (record : RecordRef) (key : BindingKey)
  | unbindAll (binder : String) (record : Option RecordRef)
  | render (binder : String) (record : Option RecordRef)
  | attach (binder : String) (source : SourceRef) (map : BindingMap.Request) (autoRender : Option Bool)
  | detach (binder : String)
  | state (binder : String)
  | observing (binder : String) (record : RecordRef)
  | settings (binder : String)
  | query (binder selector : String)

/-- What binder a new view is on: one that is there, or a new one. -/
inductive ViewHost where
  | shared (binder : String)
  | fresh (tree : String) (config : Config.Request)

/-- A command on a view. -/
inductive ViewCommand where
  | make (as : String) (host : ViewHost) (source : SourceRef) (map : BindingMap.Request)
  | mount (view : String)
  | unmount (view : String)
  | render (view : String)
  | state (view : String)
  | setSource (view : String) (source : SourceRef)
  | setBindings (view : String) (map : BindingMap.Request)
  | handle (as view : String)

namespace Workspace

/-- The source that a command names. -/
def source? (w : Workspace) : SourceRef → Except Outcome Source
  | .none => .ok .none
  | .record name => (w.record? name).map .record
  | .collection name => (w.collection? name).map .collection

end Workspace

namespace BinderCommand

open Workspace

/-- Carry out a command on a binder. -/
def perform (w : Workspace) : BinderCommand → Workspace × List Task
  | make as tree config =>
    w.withFound (w.scope? tree) fun scope =>
      w.withBuilt config.build fun config =>
        let n := w.store.binders.size
        ((w.withStore (w.store.addBinder (.ofScope scope config))).assign as (.binder n)).answer .done
  | clone as binder =>
    w.withFound (w.binder? binder) fun n => (w.assign as (.binder n)).answer .done
  | bind binder record property key twoWay autoRender =>
    w.withFound (w.binder? binder) fun n =>
      w.withFound (w.record? record) fun id =>
        w.withBuilt property.build fun property =>
          w.settled (w.store.bind n id property key twoWay autoRender)
  | unbind binder record key =>
    w.withFound (w.binder? binder) fun n =>
      w.withFound (w.recordRef? record) fun id => (w.withStore (w.store.unbind n id key)).answer .done
  | unbindAll binder record =>
    w.withFound (w.binder? binder) fun n =>
      w.withFound (w.optionalRecord? record) fun id => (w.withStore (w.store.unbindAll n id)).answer .done
  | render binder record =>
    w.withFound (w.binder? binder) fun n =>
      w.withFound (w.optionalRecord? record) fun id =>
        (w.withStore (w.store.renderBindings n id)).answer .done
  | attach binder source map autoRender =>
    w.withFound (w.binder? binder) fun n =>
      w.withFound (w.source? source) fun source =>
        w.withBuilt map.build fun map => w.settled (w.store.attach n source map autoRender)
  | detach binder =>
    w.withFound (w.binder? binder) fun n => (w.withStore (w.store.detach n)).answer .done
  | state binder => w.withFound (w.binder? binder) fun n => w.answer (.binderState (w.store.binderInfo n))
  | observing binder record =>
    w.withFound (w.binder? binder) fun n =>
      w.withFound (w.recordRef? record) fun id =>
        let registry := (w.store.binder n).registry
        w.answer (.observing (registry.has id) (registry.bindingsOf id).length)
  | settings binder => w.withFound (w.binder? binder) fun n => w.answer (.config (w.store.binder n).config)
  | query binder selector =>
    w.withFound (w.binder? binder) fun n =>
      let (store, found) := (w.store.observe (.query selector)).select (w.store.binder n).scope selector
      (w.withStore store).answer (.count found.length)

end BinderCommand

namespace ViewCommand

open Workspace

/-- Put a new view of a binder under a name. -/
def place (w : Workspace) (as : String) (n : Nat) (source : Source) (map : BindingMap) :
    Workspace × List Task :=
  let v := w.store.views.size
  ((w.withStore (w.store.addView (.ofBinder n source map))).assign as (.view v)).answer .done

/-- Carry out a command on a view. -/
def perform (w : Workspace) : ViewCommand → Workspace × List Task
  | make as host source map =>
    w.withFound (w.source? source) fun source =>
      match host with
      | .shared binder =>
        w.withFound (w.binder? binder) fun n =>
          w.withBuilt map.build fun map => place w as n source map
      | .fresh tree config =>
        w.withFound (w.scope? tree) fun scope =>
          w.withBuilt config.build fun config =>
            w.withBuilt map.build fun map =>
              let n := w.store.binders.size
              place (w.withStore (w.store.addBinder (.ofScope scope config))) as n source map
  | mount view => w.withFound (w.view? view) fun v => w.settled (w.store.mount v)
  | unmount view => w.withFound (w.view? view) fun v => (w.withStore (w.store.unmount v)).answer .done
  | render view =>
    w.withFound (w.view? view) fun v =>
      (w.withStore (w.store.renderBindings (w.store.view v).binder none)).answer .done
  | state view =>
    w.withFound (w.view? view) fun v =>
      let x := w.store.view v
      w.answer (.viewState x.isMounted (w.store.sourceText x.source) (w.store.binderInfo x.binder))
  | setSource view source =>
    w.withFound (w.view? view) fun v =>
      w.withFound (w.source? source) fun source =>
        (w.withStore (w.store.modifyView v fun x => { x with source })).answer .done
  | setBindings view map =>
    w.withFound (w.view? view) fun v =>
      w.withBuilt map.build fun map =>
        (w.withStore (w.store.modifyView v fun x => { x with bindings := map })).answer .done
  | handle as view =>
    w.withFound (w.view? view) fun v => (w.assign as (.binder (w.store.view v).binder)).answer .done

end ViewCommand

end Databind
