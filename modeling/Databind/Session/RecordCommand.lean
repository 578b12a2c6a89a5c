import Databind.BindingMap.Request
import Databind.Session.Workspace

/-!
# `Session.RecordCommand` — commands on records and collections
-/

namespace Databind

/-- How a command names a record: by its name, or by its bare identity. -/
inductive RecordRef where
  | named (name : String)
  | raw (id : RecordId)
deriving DecidableEq

/-- A command on a record. -/
inductive RecordCommand where
  | make (as : String) (fields : List (String × Value))
  | write (record : String) (entries : List (String × Value))
  | get (record : String) (names : List String)
  | has (record name : String)
  | state (record : String)
  | requestRender (record : String)
  | destroy (record : String)
  | install (record : String) (validator : Validator)
  | clearValidator (record : String)

/-- A command on a collection. -/
inductive CollectionCommand where
  | make (as : String) (members : List String)
  | listMembers (collection : String)
  | size (collection : String)
  | atIndex (collection : String) (index : Nat)
  | find (collection key : String)
  | resolve (collection key : String)
  | add (collection record : String)
  | remove (collection : String) (member : RecordRef)
  | reset (collection : String) (members : List String)
  | reorder (collection : String) (order : List Nat)
  | expand (collection : String) (map : BindingMap.Request) (defaultEvent : String)

namespace Workspace

/-- The identity of the record that a command names. -/
def recordRef? (w : Workspace) : RecordRef → Except Outcome RecordId
  | .named name => w.record? name
  | .raw id => .ok id

/-- The identity of a record that may be left out. -/
def optionalRecord? (w : Workspace) (ref : Option RecordRef) : Except Outcome (Option RecordId) :=
  match ref with
  | some ref => (w.recordRef? ref).map some
  | none => .ok none

/-- The identities of named records. -/
def records? (w : Workspace) : List String → Except Outcome (List RecordId)
  | [] => .ok []
  | name :: rest => do
    let id ← w.record? name
    let ids ← w.records? rest
    .ok (id :: ids)

end Workspace

namespace RecordCommand

open Workspace

/-- Carry out a command on a record. -/
def perform (w : Workspace) : RecordCommand → Workspace × List Task
  | make as fields =>
    let id := w.store.nextRecord
    ((w.withStore (w.store.addRecord (.ofFields (.ofEntries fields)))).assign as (.record id)).answer
      (.record id)
  | write record entries =>
    w.withFound (w.record? record) fun id =>
      let (store, tasks) := w.store.write id entries
      (w.withStore store, tasks ++ [.reply .done])
  | get record names =>
    w.withFound (w.record? record) fun id => w.answer (.values (names.map (w.store.fields id).get))
  | has record name =>
    w.withFound (w.record? record) fun id => w.answer (.flag ((w.store.fields id).has name))
  | state record =>
    w.withFound (w.record? record) fun id =>
      let r := w.store.record id
      w.answer (.recordState r.version r.alive r.changes.liveCount r.requests.liveCount)
  | requestRender record =>
    w.withFound (w.record? record) fun id => (w, [.request id, .reply .done])
  | destroy record =>
    w.withFound (w.record? record) fun id => (w.withStore (w.store.destroy id)).answer .done
  | install record validator =>
    w.withFound (w.record? record) fun id =>
      (w.withStore (w.store.modifyRecord id fun r => { r with validator := some validator })).answer .done
  | clearValidator record =>
    w.withFound (w.record? record) fun id =>
      (w.withStore (w.store.modifyRecord id fun r => { r with validator := none })).answer .done

end RecordCommand

namespace CollectionCommand

open Workspace

/-- The answer that a record was found, or none. -/
def ofRecord? : Option RecordId → Outcome
  | some id => .record id
  | none => .noRecord

/-- Carry out a command on a collection. -/
def perform (w : Workspace) : CollectionCommand → Workspace × List Task
  | make as members =>
    w.withFound (w.records? members) fun ids =>
      let n := w.store.collections.size
      ((w.withStore (w.store.addCollection (.ofMembers ids))).assign as (.collection n)).answer .done
  | listMembers collection =>
    w.withFound (w.collection? collection) fun c => w.answer (.records (w.store.collection c).members)
  | size collection =>
    w.withFound (w.collection? collection) fun c =>
      w.answer (.size (w.store.collection c).members.length)
  | atIndex collection index =>
    w.withFound (w.collection? collection) fun c => w.answer (ofRecord? (w.store.memberAt c index))
  | find collection key =>
    w.withFound (w.collection? collection) fun c => w.answer (ofRecord? (w.store.findMember c key))
  | resolve collection key =>
    w.withFound (w.collection? collection) fun c =>
      w.withBuilt (w.store.resolveMember c key) fun id => w.answer (.record id)
  | add collection record =>
    w.withFound (w.collection? collection) fun c =>
      w.withFound (w.record? record) fun id =>
        (w.withStore (w.store.modifyCollection c fun x => { x with members := x.members ++ [id] })).answer
          .done
  | remove collection member =>
    w.withFound (w.collection? collection) fun c =>
      w.withFound (w.recordRef? member) fun id =>
        let (store, tasks) := w.store.removeMember c id
        (w.withStore store, tasks)
  | reset collection members =>
    w.withFound (w.collection? collection) fun c =>
      w.withFound (w.records? members) fun ids =>
        let (store, tasks) := w.store.resetMembers c ids
        (w.withStore store, tasks)
  | reorder collection order =>
    w.withFound (w.collection? collection) fun c =>
      (w.withStore (w.store.modifyCollection c fun x =>
        { x with members := order.filterMap (x.members[·]?) })).answer .done
  | expand collection map defaultEvent =>
    w.withFound (w.collection? collection) fun c =>
      w.withBuilt map.build fun map =>
        w.withBuilt (w.store.expand c map defaultEvent) fun plan => w.answer (.plan plan)

end CollectionCommand

end Databind
