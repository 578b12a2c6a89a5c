import Databind.Store.Binding
import Databind.Text.Numeral

/-!
# `Store.Attach` — binding whole maps to records and collections

Attaching a map checks every binding it asks for before anything is detached, so a map at fault leaves
everything as it was. Under a collection a map expands to a plan: a text with an index marker binds one
member, anything else binds every member, below the element in the member's position.

## Main definitions

* `Store.resolveMember`, `Store.expand` — the plan of a map under a collection.
* `Store.attach` — check, detach, bind, and listen to the collection.
-/

namespace Databind.Store

/-! ## Members of a collection -/

/-- Whether a member is known by a key: the key is how its identity or its field `id` is shown. -/
def isKnownAs (s : Store) (key : String) (id : RecordId) : Bool :=
  id.display == key || ((s.fields id).has "id" && ((s.fields id).get "id").display == key)

/-- The first member known by a key. -/
def findMember (s : Store) (c : Nat) (key : String) : Option RecordId :=
  (s.collection c).members.find? (s.isKnownAs key)

/-- The member at a position, from zero. -/
def memberAt (s : Store) (c : Nat) (index : Nat) : Option RecordId := (s.collection c).members[index]?

/-- The member that an index marker means: one known by the key, or else the one at that position. -/
def resolveMember (s : Store) (c : Nat) (key : String) : Except BindError RecordId :=
  match s.findMember c key <|> (Text.readSize? key.toList).bind (s.memberAt c) with
  | some id => .ok id
  | none => .error (.noSuchMember key)

/-! ## Plans -/

/-- The descriptors and properties of the entries of a nested map. -/
def innerEntries (defaultEvent : String) :
    List (String × MapValue) → Except BindError (List (Descriptor × Property))
  | [] => .ok []
  | (key, value) :: rest => do
    let descriptor ← Descriptor.parse key defaultEvent
    let property ← value.property? key
    let rest ← innerEntries defaultEvent rest
    .ok ((descriptor, property) :: rest)

/-- What an entry without an index marker binds on each member. -/
def innerBindings (defaultEvent parent : String) (value : MapValue) :
    Except BindError (List (Descriptor × Property)) :=
  match value with
  | .nested entries => innerEntries defaultEvent entries
  | single => do
    let descriptor ← Descriptor.parse "" defaultEvent
    let property ← single.property? parent
    .ok [(descriptor, property)]

/-- The same bindings on every member, each below the element in the member's position. -/
def spread (parent : String) (inner : List (Descriptor × Property)) (members : List RecordId) :
    List Planned :=
  members.zipIdx.flatMap fun (id, i) =>
    inner.map fun (descriptor, property) => ⟨id, descriptor.narrowed parent (i + 1), property⟩

/-- The index marker of an entry, if its value is a text that has one. -/
def markerOf : MapValue → Option (String × String)
  | .expression text => splitIndexMarker text
  | _ => none

/-- The plan of one entry of a map. -/
def expandEntry (s : Store) (c : Nat) (defaultEvent parent : String) (value : MapValue) :
    Except BindError (List Planned) :=
  match markerOf value with
  | some (key, rest) => do
    let id ← s.resolveMember c key
    let descriptor ← Descriptor.parse parent defaultEvent
    let expression ← (Expression.compile rest).mapError .expression
    .ok [⟨id, descriptor, .compiled expression⟩]
  | none => do
    let inner ← innerBindings defaultEvent parent value
    .ok (spread parent inner (s.collection c).members)

/-- The plans of entries, one after the other. -/
def expandEntries (s : Store) (c : Nat) (defaultEvent : String) :
    List (String × MapValue) → Except BindError (List Planned)
  | [] => .ok []
  | (parent, value) :: rest => do
    let here ← s.expandEntry c defaultEvent parent value
    let behind ← s.expandEntries c defaultEvent rest
    .ok (here ++ behind)

/-- **The plan of a map under a collection.** -/
def expand (s : Store) (c : Nat) (map : BindingMap) (defaultEvent : String) :
    Except BindError (List Planned) :=
  s.expandEntries c defaultEvent map.entries

/-! ## Attaching -/

/-- Check a binding that a map asks for. -/
def prepareAt (s : Store) (n : Nat) (autoRender : Bool) (id : RecordId) (d : Descriptor)
    (property : Property) : Except BindError Prepared :=
  s.prepare n id property ⟨d.selector, d.attr⟩ (d.event.elim .off .event) autoRender

/-- Check the entries of a map on one record. -/
def prepareRecord (s : Store) (n : Nat) (autoRender : Bool) (id : RecordId) :
    List (String × MapValue) → Except BindError (List Prepared)
  | [] => .ok []
  | (key, value) :: rest => do
    let descriptor ← Descriptor.parse key (s.binder n).config.defaultEvent
    let property ← value.property? key
    let p ← s.prepareAt n autoRender id descriptor property
    let ps ← s.prepareRecord n autoRender id rest
    .ok (p :: ps)

/-- Check the bindings of a plan. -/
def preparePlan (s : Store) (n : Nat) (autoRender : Bool) : List Planned → Except BindError (List Prepared)
  | [] => .ok []
  | planned :: rest => do
    let p ← s.prepareAt n autoRender planned.record planned.descriptor planned.property
    let ps ← s.preparePlan n autoRender rest
    .ok (p :: ps)

/-- Put checked bindings into effect in order. -/
def commitAll (s : Store) (n : Nat) (ps : List Prepared) : Store := ps.foldl (fun s p => s.commit n p) s

/-- Listen to a collection: a member that leaves loses its bindings, a reset removes everything. -/
def listenCollection (s : Store) (n c : Nat) : Store :=
  let (s, onRemove) := s.subscribe (.removals c) (.dropMember n)
  let (s, onReset) := s.subscribe (.resets c) (.dropAll n)
  s.modifyBinder n fun b => { b with collectionGuards := b.collectionGuards ++ [onRemove, onReset] }

/-- Attach a map to a record. -/
def attachRecord (s : Store) (n : Nat) (id : RecordId) (map : BindingMap) (autoRender : Bool) :
    Store × Option BindError :=
  match s.prepareRecord n autoRender id map.entries with
  | .error e => (s, some e)
  | .ok ps => ((s.detach n).commitAll n ps, none)

/-- Attach a map to a collection. The size of the plan is noted before its bindings are checked. -/
def attachCollection (s : Store) (n c : Nat) (map : BindingMap) (autoRender : Bool) :
    Store × Option BindError :=
  match s.expand c map (s.binder n).config.defaultEvent with
  | .error e => (s, some e)
  | .ok plan =>
    let s := s.log (.expanded (s.collection c).members.length plan.length)
    match s.preparePlan n autoRender plan with
    | .error e => (s, some e)
    | .ok ps => (((s.detach n).commitAll n ps).listenCollection n c, none)

/-- **Attach a map to a source** in place of everything bound so far. Without a source, or with an empty
map, nothing happens. -/
def attach (s : Store) (n : Nat) (source : Source) (map : BindingMap) (autoRender : Option Bool) :
    Store × Option BindError :=
  if map.isEmpty then (s, none)
  else
    let autoRender := autoRender.getD (s.binder n).config.autoRender
    match source with
    | .none => (s, none)
    | .record id => s.attachRecord n id map autoRender
    | .collection c => s.attachCollection n c map autoRender

end Databind.Store
