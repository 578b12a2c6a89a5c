import Databind.Proofs.Accounting
import Databind.Proofs.FreeList

/-!
# `Proofs.Independence.RosterComparison` — a roster without the listeners of one binder

The identity that a listener is given depends on who else subscribed, so two rosters that differ in the listeners of one
binder differ in the identities of all. A shade is a listener without its identity; of that it shows only whether it is
among some that are sought, those of a guard or of a call list. Two rosters are tied if their shades are the same, and
the operations of a roster keep them tied.

## Main definitions

* `Roster.shades` — the listeners of a roster but those of one binder.
* `Roster.Tied` — two rosters are the same but for those listeners, and so are the identities sought in either.
-/

namespace Databind

/-- Whether somebody who hears is a reaction of a binder. -/
def Hearer.isOf (n : Nat) : Hearer → Bool
  | .listener l => l.binder? = some n
  | .handler _ => false

namespace Roster

/-- A listener seen from outside: its identity shows only in whether it is among those that are sought. -/
structure Shade where
  hearer : Hearer
  held : Bool
  pins : Nat
  sought : Bool

/-- A listener seen by somebody who seeks some identities. -/
def Entry.shade (ids : List Nat) (e : Entry Hearer) : Shade := ⟨e.listener, e.held, e.pins, decide (e.id ∈ ids)⟩

def Shade.isLive (a : Shade) : Bool := a.held || decide (0 < a.pins)

/-- The listeners of a roster but those of one binder. -/
def shades (n : Nat) (ids : List Nat) (r : Roster Hearer) : List Shade :=
  (r.entries.filter fun e => !e.listener.isOf n).map (Entry.shade ids)

/-- A change of the listeners under some identities. -/
def alter (js : List Nat) (g : Entry Hearer → Entry Hearer) (r : Roster Hearer) : Roster Hearer :=
  { r with entries := r.entries.map fun e => if e.id ∈ js then g e else e }

/-- A change that shows from outside as it is, whatever identities are sought. -/
structure Plain (g : Entry Hearer → Entry Hearer) (h : Shade → Shade) : Prop where
  listener : ∀ e, (g e).listener = e.listener
  shade : ∀ ids e, (g e).shade ids = h (e.shade ids)

variable {n : Nat} {ids ids' js js' : List Nat} {r r' : Roster Hearer} {g : Entry Hearer → Entry Hearer}
  {h : Shade → Shade}

theorem release_eq_alter (r : Roster Hearer) (i : Nat) :
    r.release i = r.alter [i] fun e => { e with held := false } := by
  simp only [release, modify, alter, List.mem_singleton]

theorem plain_release : Plain (fun e => { e with held := false }) fun a => { a with held := false } :=
  ⟨fun _ => rfl, fun _ _ => rfl⟩

theorem plain_pin : Plain (fun e => { e with pins := e.pins + 1 }) fun a => { a with pins := a.pins + 1 } :=
  ⟨fun _ => rfl, fun _ _ => rfl⟩

theorem plain_unpin : Plain (fun e => { e with pins := e.pins - 1 }) fun a => { a with pins := a.pins - 1 } :=
  ⟨fun _ => rfl, fun _ _ => rfl⟩

/-- **What a change of some listeners shows** is said by what shows of them. -/
theorem shades_alter (hg : Plain g h) (r : Roster Hearer) (js ids : List Nat) :
    (r.alter js g).shades n ids =
      List.zipWith (fun a b => if b.sought then h a else a) (r.shades n ids) (r.shades n js) := by
  have hlistener (e : Entry Hearer) : (if e.id ∈ js then g e else e).listener = e.listener := by
    split
    · exact hg.listener e
    · rfl
  simp only [shades, alter, List.filter_map, Function.comp_def, hlistener, List.map_map, List.zipWith_map,
    List.zipWith_self]
  refine List.map_congr_left fun e _ => ?_
  by_cases hid : e.id ∈ js
  · rw [if_pos hid, hg.shade, if_pos (show (e.shade js).sought = true from decide_eq_true hid)]
  · rw [if_neg hid, if_neg (by simpa [Entry.shade] using hid)]

theorem shades_prune (r : Roster Hearer) (ids : List Nat) :
    r.prune.shades n ids = (r.shades n ids).filter Shade.isLive := by
  simp only [shades, prune, List.filter_map, List.filter_filter, Function.comp_def]
  congr 1
  refine List.filter_congr fun e _ => ?_
  rw [Bool.and_comm]
  rfl

theorem shades_subscribe (r : Roster Hearer) {a : Hearer} (ha : a.isOf n = false) (ids : List Nat) :
    (r.subscribe a).shades n ids = r.shades n ids ++ [⟨a, true, 0, decide (r.next ∈ ids)⟩] := by
  simp [shades, subscribe, ha, Entry.shade]

theorem shades_subscribe_own (r : Roster Hearer) {a : Hearer} (ha : a.isOf n = true) (ids : List Nat) :
    (r.subscribe a).shades n ids = r.shades n ids := by
  simp [shades, subscribe, ha]

/-- Only what is there can be sought with success. -/
theorem shades_congr (hids : ∀ e ∈ r.entries, (e.id ∈ ids ↔ e.id ∈ ids')) : r.shades n ids = r.shades n ids' := by
  refine List.map_congr_left fun e he => ?_
  simp only [Entry.shade, hids e (List.mem_filter.mp he).1]

/-- When the live listeners are sought, all that a call list leaves are found. -/
theorem shades_prune_live (r : Roster Hearer) :
    r.prune.shades n (r.live.map (·.id)) = (r.prune.shades n []).map fun a => { a with sought := true } := by
  simp only [shades, List.map_map]
  refine List.map_congr_left fun e he => ?_
  have hmem : e.id ∈ r.live.map (·.id) := List.mem_map_of_mem (List.mem_filter.mp he).1
  simp only [Entry.shade, hmem, decide_true, Function.comp_apply]

/-- Who is called, those of the binder left out. -/
theorem live_of_shades (r : Roster Hearer) :
    (r.live.map (·.listener)).filter (fun a => !a.isOf n) = ((r.shades n []).filter Shade.isLive).map (·.hearer) := by
  simp only [live, shades, List.filter_map, List.map_map, List.filter_filter, Function.comp_def]
  refine congrArg _ (List.filter_congr fun e _ => ?_)
  rw [Bool.and_comm]
  rfl

/-! ## Tied identities -/

/-- **Two rosters are the same but for the listeners of a binder**, and so are the identities that are sought in
either. They were given out. -/
structure Tied (n : Nat) (r r' : Roster Hearer) (ids ids' : List Nat) : Prop where
  shades : r.shades n ids = r'.shades n ids'
  given : ∀ i ∈ ids, i < r.next
  given' : ∀ i ∈ ids', i < r'.next

namespace Tied

theorem symm (h : Tied n r r' ids ids') : Tied n r' r ids' ids := ⟨h.shades.symm, h.given', h.given⟩

theorem trans {r'' : Roster Hearer} {ids'' : List Nat} (h : Tied n r r' ids ids') (h' : Tied n r' r'' ids' ids'') :
    Tied n r r'' ids ids'' := ⟨h.shades.trans h'.shades, h.given, h'.given'⟩

/-- Identities that are tied show the same listeners. -/
theorem bare (h : Tied n r r' ids ids') : Tied n r r' [] [] := by
  have hbare (r : Roster Hearer) (ids : List Nat) :
      r.shades n [] = (r.shades n ids).map fun a => { a with sought := false } := by
    simp [Roster.shades, Entry.shade, Function.comp_def]
  exact ⟨by rw [hbare r ids, hbare r' ids', h.shades], nofun, nofun⟩

theorem alter (hg : Plain g h) (hjs : Tied n r r' js js') (hids : Tied n r r' ids ids') :
    Tied n (r.alter js g) (r'.alter js' g) ids ids' :=
  ⟨by rw [shades_alter hg, shades_alter hg, hjs.shades, hids.shades], hids.given, hids.given'⟩

theorem release {i i' : Nat} (hi : Tied n r r' [i] [i']) (hids : Tied n r r' ids ids') :
    Tied n (r.release i) (r'.release i') ids ids' := by
  rw [release_eq_alter, release_eq_alter]
  exact .alter plain_release hi hids

theorem unpin (hjs : Tied n r r' js js') (hids : Tied n r r' ids ids') :
    Tied n (r.unpin js) (r'.unpin js') ids ids' := .alter plain_unpin hjs hids

theorem clear (hids : Tied n r r' ids ids') : Tied n r.clear r'.clear ids ids' := ⟨rfl, hids.given, hids.given'⟩

theorem prune (hids : Tied n r r' ids ids') : Tied n r.prune r'.prune ids ids' :=
  ⟨by rw [shades_prune, shades_prune, hids.shades], hids.given, hids.given'⟩

theorem live (h : Tied n r r' [] []) (hr : r.Sound) (hr' : r'.Sound) :
    Tied n r.prune r'.prune (r.live.map (·.id)) (r'.live.map (·.id)) := by
  have hgiven {r : Roster Hearer} (hr : r.Sound) : ∀ i ∈ r.live.map (·.id), i < r.prune.next := by
    intro i hi
    obtain ⟨e, he, rfl⟩ := List.mem_map.mp hi
    exact hr.fresh e (List.mem_filter.mp he).1
  exact ⟨by rw [shades_prune_live, shades_prune_live, h.prune.shades], hgiven hr, hgiven hr'⟩

/-- **Both call lists are drawn up alike.** -/
theorem draw (hr : r.Sound) (hr' : r'.Sound) (hids : Tied n r r' ids ids') :
    Tied n (r.prune.pin (r.live.map (·.id))) (r'.prune.pin (r'.live.map (·.id))) ids ids' :=
  .alter plain_pin (hids.bare.live hr hr') hids.prune

/-- A call list that is drawn up pins the same listeners on either side. -/
theorem drawn (h : Tied n r r' [] []) (hr : r.Sound) (hr' : r'.Sound) :
    Tied n (r.prune.pin (r.live.map (·.id))) (r'.prune.pin (r'.live.map (·.id))) (r.live.map (·.id))
      (r'.live.map (·.id)) := .alter plain_pin (h.live hr hr') (h.live hr hr')

theorem subscribe {a : Hearer} (ha : a.isOf n = false) (hids : Tied n r r' ids ids') :
    Tied n (r.subscribe a) (r'.subscribe a) ids ids' := by
  have hnew : ¬r.next ∈ ids := fun hmem => Nat.lt_irrefl _ (hids.given _ hmem)
  have hnew' : ¬r'.next ∈ ids' := fun hmem => Nat.lt_irrefl _ (hids.given' _ hmem)
  refine ⟨?_, fun i hi => Nat.lt_succ_of_lt (hids.given i hi), fun i hi => Nat.lt_succ_of_lt (hids.given' i hi)⟩
  rw [shades_subscribe r ha, shades_subscribe r' ha, hids.shades, decide_eq_false hnew, decide_eq_false hnew']

theorem not_next {r : Roster Hearer} (hr : r.Sound) : r.shades n [r.next] = r.shades n [] := by
  refine shades_congr fun e he => ?_
  have hne : e.id ≠ r.next := Nat.ne_of_lt (hr.fresh e he)
  simp [hne]

/-- **The identities of a new listener are tied.** -/
theorem subscribed {a : Hearer} (ha : a.isOf n = false) (h : Tied n r r' [] []) (hr : r.Sound) (hr' : r'.Sound) :
    Tied n (r.subscribe a) (r'.subscribe a) [r.next] [r'.next] := by
  have hgiven (r : Roster Hearer) : ∀ i ∈ [r.next], i < (r.subscribe a).next := fun i hi =>
    List.mem_singleton.mp hi ▸ Nat.lt_succ_self _
  refine ⟨?_, hgiven r, hgiven r'⟩
  rw [shades_subscribe r ha, shades_subscribe r' ha, not_next hr, not_next hr', h.shades]
  simp

/-! ### The binder's own listeners -/

/-- A new listener of the binder does not show. -/
theorem subscribe_own {a : Hearer} (ha : a.isOf n = true) (hids : Tied n r r ids ids) :
    Tied n r (r.subscribe a) ids ids :=
  ⟨(shades_subscribe_own r ha ids).symm, hids.given, fun i hi => Nat.lt_succ_of_lt (hids.given i hi)⟩

/-- Its identity finds nobody else. -/
theorem subscribed_own {a : Hearer} (ha : a.isOf n = true) (hr : r.Sound) :
    Tied n (r.subscribe a) (r.subscribe a) [r.next] [] := by
  refine ⟨?_, fun i hi => List.mem_singleton.mp hi ▸ Nat.lt_succ_self _, nofun⟩
  rw [shades_subscribe_own r ha, shades_subscribe_own r ha, not_next hr]

/-- Dropping a guard that finds nobody else does not show. -/
theorem release_own {i : Nat} (hi : Tied n r r [i] []) (hids : Tied n r r ids ids) :
    Tied n r (r.release i) ids ids := by
  refine ⟨?_, hids.given, hids.given⟩
  rw [release_eq_alter, shades_alter plain_release, hi.shades]
  simp [Roster.shades, List.zipWith_map_left, List.zipWith_map_right, Entry.shade]

end Tied

end Roster

namespace Store

/-- The listeners of a binder that are live on a channel. -/
def listenersOf (s : Store) (n : Nat) (ch : Channel) : List Hearer :=
  ((s.roster ch).live.map (·.listener)).filter (·.isOf n)

/-- Nobody listens for a binder on the handlers of a tree. -/
theorem listenersOf_tree (s : Store) (n k : Nat) : s.listenersOf n (.delegations k) = [] := by
  refine List.filter_eq_nil_iff.mpr fun x hx => ?_
  obtain ⟨e, he, rfl⟩ := List.mem_map.mp hx
  obtain ⟨d, -, hd⟩ := List.mem_map.mp (List.mem_filter.mp he).1
  rw [← hd]
  exact Bool.false_ne_true

end Store

end Databind
