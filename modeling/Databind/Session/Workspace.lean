import Databind.Store.Task
import Databind.Store.View

/-!
# `Session.Workspace` — named objects

A workspace gives names to the objects of a store. A name denotes one object at a time. Giving a name a
new object drops what it denoted before, after the new object is in place; dropping a subscription ends
it, dropping a view unmounts it, and dropping the last name through which a binder can be reached (its own
or that of a view on it) retires the binder.

Lookups by name answer with the object or with the outcome that says what is missing.
-/

namespace Databind

/-- What a name denotes. -/
inductive Handle where
  | tree (scope : Scope)
  | element (tree node : Nat)
  | record (id : RecordId)
  | collection (n : Nat)
  | binder (n : Nat)
  | view (n : Nat)
  | list (n : Nat)
  /-- A subscription; one that was never attached has no guard. -/
  | subscription (guard : Option Guard)
deriving DecidableEq

/-- A store with names for its objects. -/
structure Workspace where
  store : Store
  names : List (String × Handle)

namespace Workspace

/-- The workspace without objects. -/
def empty : Workspace := ⟨.empty, []⟩

/-- What a name denotes. -/
def handle? (w : Workspace) (name : String) : Option Handle := w.names.lookup name

/-! ## Names -/

/-- Whether a handle reaches a binder: it is the binder's own, or that of a view on it. -/
def reaches (store : Store) (n : Nat) : Handle → Bool
  | .binder m => m == n
  | .view v => (store.view v).binder == n
  | _ => false

/-- Retire a binder that no name reaches any more. -/
def retireUnreached (w : Workspace) (n : Nat) : Workspace :=
  if w.names.any fun entry => reaches w.store n entry.2 then w
  else { w with store := w.store.retire n }

/-- What follows when a name stops denoting an object. -/
def letGo (w : Workspace) (h : Handle) : Workspace :=
  match h with
  | .subscription guard => { w with store := w.store.dropAll guard.toList }
  | .binder n => w.retireUnreached n
  | .view v => retireUnreached { w with store := w.store.unmount v } (w.store.view v).binder
  | _ => w

/-- Let a name denote an object. -/
def assign (w : Workspace) (name : String) (h : Handle) : Workspace :=
  let old := w.handle? name
  let w := { w with names := (name, h) :: w.names.filter (·.1 ≠ name) }
  old.elim w w.letGo

/-- Forget a name; also whether it denoted anything. -/
def forget (w : Workspace) (name : String) : Workspace × Bool :=
  match w.handle? name with
  | some h => (letGo { w with names := w.names.filter (·.1 ≠ name) } h, true)
  | none => (w, false)

/-! ## Lookups -/

def scope? (w : Workspace) (name : String) : Except Outcome Scope :=
  match w.handle? name with
  | some (.tree scope) => .ok scope
  | _ => .error (.unknown name)

def record? (w : Workspace) (name : String) : Except Outcome RecordId :=
  match w.handle? name with
  | some (.record id) => .ok id
  | _ => .error (.unknown name)

def collection? (w : Workspace) (name : String) : Except Outcome Nat :=
  match w.handle? name with
  | some (.collection n) => .ok n
  | _ => .error (.unknown name)

def binder? (w : Workspace) (name : String) : Except Outcome Nat :=
  match w.handle? name with
  | some (.binder n) => .ok n
  | _ => .error (.unknown name)

def view? (w : Workspace) (name : String) : Except Outcome Nat :=
  match w.handle? name with
  | some (.view n) => .ok n
  | _ => .error (.unknown name)

def list? (w : Workspace) (name : String) : Except Outcome Nat :=
  match w.handle? name with
  | some (.list n) => .ok n
  | _ => .error (.unknown name)

/-! ## Answers -/

/-- A workspace with an answer and nothing left to do. -/
def answer (w : Workspace) (outcome : Outcome) : Workspace × List Task := (w, [.reply outcome])

/-- A workspace with another store. -/
def withStore (w : Workspace) (store : Store) : Workspace := { w with store }

/-- Go on with what was looked up, or answer what is missing. -/
def withFound {α : Type} (w : Workspace) (found : Except Outcome α)
    (go : α → Workspace × List Task) : Workspace × List Task :=
  match found with
  | .ok a => go a
  | .error outcome => w.answer outcome

/-- Go on with what was built, or answer why it cannot be. -/
def withBuilt {α : Type} (w : Workspace) (built : Except BindError α)
    (go : α → Workspace × List Task) : Workspace × List Task :=
  match built with
  | .ok a => go a
  | .error e => w.answer (.failed e)

/-- The answer of something that may fail to bind. -/
def settled (w : Workspace) (result : Store × Option BindError) : Workspace × List Task :=
  (w.withStore result.1).answer (result.2.elim .done .failed)

end Workspace

end Databind
