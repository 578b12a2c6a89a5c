import Databind.Store.Basic

/-!
# `Store.Listening` — subscriptions and call lists

Subscribing gives a guard, dropping the guard ends the subscription. `Store.draw` begins a notification:
it draws up the list of those to call and pins them, so that a guard dropped meanwhile takes effect only
when `Store.finish` ends the notification.
-/

namespace Databind.Store

/-- The listeners on a channel; those of a tree are kept with the tree. -/
def listeners (s : Store) : Channel → Roster Listener
  | .changes id => (s.record id).changes
  | .requests id => (s.record id).requests
  | .removals n => (s.collection n).removals
  | .resets n => (s.collection n).resets
  | .delegations _ => .empty
  | .list n => s.list n

/-- Change the roster of a channel, whatever kind of listener it holds. -/
def modifyRoster (s : Store) (channel : Channel) (f : {α : Type} → Roster α → Roster α) : Store :=
  match channel with
  | .changes id => s.modifyRecord id fun r => { r with changes := f r.changes }
  | .requests id => s.modifyRecord id fun r => { r with requests := f r.requests }
  | .removals n => s.modifyCollection n fun c => { c with removals := f c.removals }
  | .resets n => s.modifyCollection n fun c => { c with resets := f c.resets }
  | .delegations n => s.modifyTree n fun t => { t with delegations := f t.delegations }
  | .list n => s.modifyList n f

/-- Add a listener on a channel. -/
def subscribe (s : Store) (channel : Channel) (listener : Listener) : Store × Guard :=
  let guard : Guard := ⟨channel, (s.listeners channel).next⟩
  match channel with
  | .changes id => (s.modifyRecord id fun r => { r with changes := r.changes.subscribe listener }, guard)
  | .requests id => (s.modifyRecord id fun r => { r with requests := r.requests.subscribe listener }, guard)
  | .removals n =>
    (s.modifyCollection n fun c => { c with removals := c.removals.subscribe listener }, guard)
  | .resets n => (s.modifyCollection n fun c => { c with resets := c.resets.subscribe listener }, guard)
  | .delegations _ => (s, guard)
  | .list n => (s.modifyList n fun r => r.subscribe listener, guard)

/-- Drop a guard. -/
def drop (s : Store) (guard : Guard) : Store := s.modifyRoster guard.channel fun r => r.release guard.id

/-- Drop several guards. -/
def dropAll (s : Store) (guards : List Guard) : Store := guards.foldl drop s

/-- Begin a notification: whom to call, pinned until `finish`. -/
def draw (s : Store) (channel : Channel) : Store × List (Roster.Entry Listener) :=
  let live := (s.listeners channel).live
  (s.modifyRoster channel fun r => r.prune.pin (live.map (·.id)), live)

/-- End a notification: the pins of those it called are taken back. -/
def finish (s : Store) (channel : Channel) (ids : List Nat) : Store :=
  s.modifyRoster channel fun r => r.unpin ids

end Databind.Store
