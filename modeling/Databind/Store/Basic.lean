import Databind.Record.Basic
import Databind.Store.Event
import Databind.Tree.Arena

/-!
# `Store` — records, collections, trees, binders and views

The store holds every object by number, and a journal of what was observed since it was last emptied.
Nothing is ever removed from it: an object whose last name is gone is out of reach, and a binder is
retired. Lookups are total; a number that denotes nothing gives an empty object, which is destroyed if it
is a record and retired if it is a binder.
-/

namespace Databind

/-- An ordered collection of records. -/
structure Collection where
  members : List RecordId
  removals : Roster Listener
  resets : Roster Listener

/-- A tree of elements with the handlers of its events. -/
structure Tree where
  arena : Arena
  delegations : Roster Delegation

/-- What was observed: events and notices, each in order. -/
structure Journal where
  events : List Event
  notices : List Notice

/-- All objects, and the journal. -/
structure Store where
  /-- The records by identity. The first place is never given out, for identities count from one. -/
  records : Array Record
  collections : Array Collection
  trees : Array Tree
  binders : Array Binder
  views : Array View
  lists : Array (Roster Listener)
  journal : Journal

/-- A collection of the given members, to which nobody listens. -/
def Collection.ofMembers (members : List RecordId) : Collection := ⟨members, .empty, .empty⟩

instance : Inhabited Collection := ⟨.ofMembers []⟩

/-- A tree without handlers. -/
def Tree.ofArena (arena : Arena) : Tree := ⟨arena, .empty⟩

instance : Inhabited Tree := ⟨.ofArena .empty⟩

/-- A journal without entries. -/
def Journal.empty : Journal := ⟨[], []⟩

namespace Store

/-- The store without objects. -/
def empty : Store := ⟨#[default], #[], #[], #[], #[], #[], .empty⟩

instance : Inhabited Store := ⟨empty⟩

/-! ## Lookups -/

def record (s : Store) (id : RecordId) : Record := s.records.getD id.number default

def collection (s : Store) (n : Nat) : Collection := s.collections.getD n default

def tree (s : Store) (n : Nat) : Tree := s.trees.getD n default

def binder (s : Store) (n : Nat) : Binder := s.binders.getD n default

def view (s : Store) (n : Nat) : View := s.views.getD n default

def list (s : Store) (n : Nat) : Roster Listener := s.lists.getD n default

/-- The elements of a tree. -/
def arena (s : Store) (n : Nat) : Arena := (s.tree n).arena

/-- The stored fields of a record. -/
def fields (s : Store) (id : RecordId) : Fields := (s.record id).fields

/-! ## Changes -/

def modifyRecord (s : Store) (id : RecordId) (f : Record → Record) : Store :=
  { s with records := s.records.modify id.number f }

def modifyCollection (s : Store) (n : Nat) (f : Collection → Collection) : Store :=
  { s with collections := s.collections.modify n f }

def modifyTree (s : Store) (n : Nat) (f : Tree → Tree) : Store :=
  { s with trees := s.trees.modify n f }

def modifyBinder (s : Store) (n : Nat) (f : Binder → Binder) : Store :=
  { s with binders := s.binders.modify n f }

def modifyView (s : Store) (n : Nat) (f : View → View) : Store :=
  { s with views := s.views.modify n f }

def modifyList (s : Store) (n : Nat) (f : Roster Listener → Roster Listener) : Store :=
  { s with lists := s.lists.modify n f }

def modifyArena (s : Store) (n : Nat) (f : Arena → Arena) : Store :=
  s.modifyTree n fun t => { t with arena := f t.arena }

def modifyRegistry (s : Store) (n : Nat) (f : Registry → Registry) : Store :=
  s.modifyBinder n fun b => { b with registry := f b.registry }

/-! ## New objects -/

/-- The identity of the next record. -/
def nextRecord (s : Store) : RecordId := ⟨s.records.size⟩

def addRecord (s : Store) (r : Record) : Store := { s with records := s.records.push r }

def addCollection (s : Store) (c : Collection) : Store := { s with collections := s.collections.push c }

def addTree (s : Store) (t : Tree) : Store := { s with trees := s.trees.push t }

def addBinder (s : Store) (b : Binder) : Store := { s with binders := s.binders.push b }

def addView (s : Store) (v : View) : Store := { s with views := s.views.push v }

def addList (s : Store) : Store := { s with lists := s.lists.push .empty }

/-! ## The journal -/

/-- Note something down. -/
def log (s : Store) (notice : Notice) : Store :=
  { s with journal := { s.journal with notices := s.journal.notices ++ [notice] } }

/-- Note several things down. -/
def logAll (s : Store) (notices : List Notice) : Store := notices.foldl log s

/-- Record an event. -/
def observe (s : Store) (event : Event) : Store :=
  { s with journal := { s.journal with events := s.journal.events ++ [event] } }

/-- The store with an empty journal. -/
def emptyJournal (s : Store) : Store := { s with journal := .empty }

end Store

end Databind
