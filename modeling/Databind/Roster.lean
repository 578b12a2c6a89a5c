/-!
# `Roster` — ordered lists of guarded listeners

A roster keeps listeners in the order in which they subscribed. A listener is live while its guard is
held, and also while a running call list still holds it. Entries that are no longer live stay until the
next call list is drawn up.

Drawing up a call list drops the dead entries and pins those that will be called; when the list has run
to its end the pins are taken back. A listener whose guard is dropped while it is pinned therefore stays
live until then.
-/

namespace Databind

namespace Roster

/-- A listener in a roster. -/
structure Entry (α : Type) where
  id : Nat
  listener : α
  /-- Whether its guard is held. -/
  held : Bool
  /-- How many running call lists hold it. -/
  pins : Nat
deriving DecidableEq

/-- Whether a listener would be called. -/
def Entry.isLive {α : Type} (e : Entry α) : Bool := e.held || decide (0 < e.pins)

end Roster

/-- Listeners in order of subscription. -/
structure Roster (α : Type) where
  entries : List (Roster.Entry α)
  /-- The identity of the next subscriber. -/
  next : Nat
deriving DecidableEq

namespace Roster

variable {α : Type}

/-- The roster without listeners. -/
def empty : Roster α := ⟨[], 0⟩

instance : Inhabited (Roster α) := ⟨empty⟩

/-- Add a listener at the end; its guard is held. -/
def subscribe (r : Roster α) (listener : α) : Roster α :=
  ⟨r.entries ++ [⟨r.next, listener, true, 0⟩], r.next + 1⟩

/-- Change the entry of one listener. -/
def modify (r : Roster α) (id : Nat) (f : Entry α → Entry α) : Roster α :=
  { r with entries := r.entries.map fun e => if e.id = id then f e else e }

/-- Drop the guard of a listener. -/
def release (r : Roster α) (id : Nat) : Roster α := r.modify id fun e => { e with held := false }

/-- Forget every listener. Guards that are still held guard nothing any more. -/
def clear (r : Roster α) : Roster α := { r with entries := [] }

/-- The live listeners only. -/
def prune (r : Roster α) : Roster α := { r with entries := r.entries.filter Entry.isLive }

/-- Pin listeners for a call list. -/
def pin (r : Roster α) (ids : List Nat) : Roster α :=
  { r with entries := r.entries.map fun e => if e.id ∈ ids then { e with pins := e.pins + 1 } else e }

/-- Take back the pins of a call list. -/
def unpin (r : Roster α) (ids : List Nat) : Roster α :=
  { r with entries := r.entries.map fun e => if e.id ∈ ids then { e with pins := e.pins - 1 } else e }

/-- How many listeners are listed, dead ones included. -/
def size (r : Roster α) : Nat := r.entries.length

/-- The live listeners with their identities, in order. -/
def live (r : Roster α) : List (Entry α) := r.entries.filter Entry.isLive

/-- How many listeners are live. -/
def liveCount (r : Roster α) : Nat := r.live.length

end Roster

end Databind
