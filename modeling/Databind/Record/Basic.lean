import Databind.Fields
import Databind.Guard
import Databind.Record.Rule

/-!
# `Record` — observable records

A record holds fields, counts its notifying writes, and lists who listens to its changes and to requests
to render it again. Writes come in batches. Each write of a batch is validated and then stored; storing an
equal value changes nothing, and storing `undefined` removes the field. `Record.write` says what a batch
does to the record and what it leaves to notify; it notifies nobody itself.
-/

namespace Databind

namespace Fields

/-- The fields after a write that alters them; none if it alters nothing. -/
def store? (fields : Fields) (name : String) (v : Value) : Option Fields :=
  if v.isUndefined then
    if fields.has name then some (fields.erase name) else none
  else if (Dict.get? fields name).any (·.strictEqual v) then none
  else some (fields.insert name v)

end Fields

/-- An observable record. -/
structure Record where
  fields : Fields
  /-- How many writes have notified. -/
  version : Nat
  alive : Bool
  validator : Option Validator
  changes : Roster Listener
  requests : Roster Listener

namespace Record

/-- A new record. -/
def ofFields (fields : Fields) : Record := ⟨fields, 0, true, none, .empty, .empty⟩

instance : Inhabited Record := ⟨{ ofFields .empty with alive := false }⟩

/-- What a batch of writes has done so far. -/
structure Batch where
  fields : Fields
  /-- The names whose field was altered. -/
  changed : ChangeSet
  /-- The writes shown to the validator. -/
  consulted : List (String × Value)
  /-- The writes refused, with the reason. -/
  refused : List (String × String)

namespace Batch

/-- A batch before its first write. -/
def start (fields : Fields) : Batch := ⟨fields, .empty, [], []⟩

/-- Store a value. -/
def store (b : Batch) (name : String) (v : Value) : Batch :=
  match b.fields.store? name v with
  | some fields => { b with fields, changed := b.changed.insert name }
  | none => b

/-- One write: validate, then store. -/
def write (validator : Option Validator) (b : Batch) (entry : String × Value) : Batch :=
  match validator with
  | none => b.store entry.1 entry.2
  | some validate =>
    let b := { b with consulted := b.consulted ++ [entry] }
    match validate entry.1 entry.2 with
    | .ok v => b.store entry.1 v
    | .error reason => { b with refused := b.refused ++ [(entry.1, reason)] }

end Batch

/-- What a batch of writes does to the fields of a record. -/
def batch (r : Record) (entries : List (String × Value)) : Batch :=
  entries.foldl (Batch.write r.validator) (.start r.fields)

/-- The record after a batch: a batch that altered a field counts once. -/
def commit (r : Record) (b : Batch) : Record :=
  { r with fields := b.fields, version := if b.changed.isEmpty then r.version else r.version + 1 }

/-- The record destroyed: nobody listens any more, and nothing can be written. -/
def destroy (r : Record) : Record :=
  { r with alive := false, changes := r.changes.clear, requests := r.requests.clear }

end Record

end Databind
