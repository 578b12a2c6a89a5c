import Databind.Guard
import Databind.Proofs.Roster

/-!
# `Proofs.Ledger` — one free list and all that bears on it

What an emission calls is read off guards and pins, and pins come from emissions that are still running. A ledger
puts side by side what decides it: the roster of the list, the subscriptions on it that are held, the call lists
that are running, and the callbacks that are **signed**, which are those subscribed since the list was last
cleared, in order. The last of these is kept by nobody; it is what a history says.

`Ledger.Move` is everything that can happen to a list. Each of the three parts of `Ledger.Sound` is preserved by
every move, and together they say whom the next emission calls (`Ledger.Sound.live_eq`): the signed callbacks
whose subscription is held or is on a running call list.
-/

namespace Databind

/-- A free list with all that bears on it. -/
structure Ledger where
  roster : Roster Listener
  /-- The identities of the subscriptions that are held. -/
  held : List Nat
  /-- The call lists of the emissions that are running, the innermost first. -/
  calls : List (List Nat)
  /-- The callbacks subscribed since the list was last cleared, each under the identity of its subscription. -/
  signed : List (Nat × Nat)

namespace Ledger

/-- **One thing that happens to a free list.** -/
inductive Move : Ledger → Ledger → Prop
  | subscribed {r held calls signed} (k : Nat) :
    Move ⟨r, held, calls, signed⟩ ⟨r.subscribe (.callback k), r.next :: held, calls, signed ++ [(r.next, k)]⟩
  | dropped {r before behind calls signed} (id : Nat) :
    Move ⟨r, before ++ id :: behind, calls, signed⟩ ⟨r.release id, before ++ behind, calls, signed⟩
  | cleared {r held calls signed} : Move ⟨r, held, calls, signed⟩ ⟨r.clear, held, calls, []⟩
  | drew {r held calls signed} :
    Move ⟨r, held, calls, signed⟩
      ⟨r.prune.pin (r.live.map (·.id)), held, r.live.map (·.id) :: calls, signed⟩
  | finished {r held ids calls signed} : Move ⟨r, held, ids :: calls, signed⟩ ⟨r.unpin ids, held, calls, signed⟩

/-- Anything that can happen to a free list. -/
inductive Moves : Ledger → Ledger → Prop
  | refl (a : Ledger) : Moves a a
  | tail {a b c : Ledger} (h : Moves a b) (h' : Move b c) : Moves a c

/-- A subscription is held, or a running emission has it on its call list. -/
def Due (a : Ledger) (id : Nat) : Prop := id ∈ a.held ∨ ∃ ids ∈ a.calls, id ∈ ids

instance (a : Ledger) : DecidablePred a.Due := fun id =>
  inferInstanceAs (Decidable (id ∈ a.held ∨ ∃ ids ∈ a.calls, id ∈ ids))

/-- Identities are given out in order, and whatever has one has one that was given out. -/
structure Numbered (a : Ledger) : Prop where
  roster : a.roster.Sound
  entries : a.roster.entries.Pairwise (·.id < ·.id)
  signed : a.signed.Pairwise (·.1 < ·.1)
  signed_lt : ∀ c ∈ a.signed, c.1 < a.roster.next
  held : a.held.Nodup
  held_lt : ∀ id ∈ a.held, id < a.roster.next
  calls_lt : ∀ ids ∈ a.calls, ∀ id ∈ ids, id < a.roster.next

/-- The entries of the roster say who is held, and how often each is on a running call list. -/
structure Accurate (a : Ledger) : Prop where
  held_iff : ∀ e ∈ a.roster.entries, (e.held = true ↔ e.id ∈ a.held)
  pins : ∀ e ∈ a.roster.entries, e.pins = a.calls.countP (e.id ∈ ·)

/-- Whoever is listed is signed, and whoever is signed and due is listed. -/
structure Complete (a : Ledger) : Prop where
  listed : ∀ e ∈ a.roster.entries, ∃ k, e.listener = .callback k ∧ (e.id, k) ∈ a.signed
  kept : ∀ c ∈ a.signed, a.Due c.1 → ∃ e ∈ a.roster.entries, e.id = c.1

/-- A ledger in some history. -/
structure Sound (a : Ledger) : Prop extends a.Numbered, a.Accurate, a.Complete

variable {a b : Ledger}

theorem sound_empty : Sound ⟨.empty, [], [], []⟩ where
  roster := Roster.sound_empty
  entries := .nil
  signed := .nil
  signed_lt _ hc := absurd hc List.not_mem_nil
  held := .nil
  held_lt _ hid := absurd hid List.not_mem_nil
  calls_lt _ hids := absurd hids List.not_mem_nil
  held_iff _ he := absurd he List.not_mem_nil
  pins _ he := absurd he List.not_mem_nil
  listed _ he := absurd he List.not_mem_nil
  kept _ hc := absurd hc List.not_mem_nil

/-! ## Identities -/

/-- Changing entries one by one keeps their order if it keeps their identities. -/
theorem pairwise_mapEntries {entries : List (Roster.Entry Listener)} (h : entries.Pairwise (·.id < ·.id))
    {f : Roster.Entry Listener → Roster.Entry Listener} (hid : ∀ e, (f e).id = e.id) :
    (entries.map f).Pairwise (·.id < ·.id) := by
  refine List.pairwise_map.mpr (h.imp ?_)
  intro e e' hlt
  rwa [hid, hid]

/-- **A move gives out identities in order.** -/
theorem Move.numbered (h : a.Move b) (ha : a.Numbered) : b.Numbered := by
  cases h with
  | @subscribed r held calls signed k =>
    -- the new identity is above all that were given out
    constructor
    case roster => exact Roster.sound_subscribe ha.roster _
    case entries =>
      refine List.pairwise_append.mpr ⟨ha.entries, List.pairwise_singleton .., ?_⟩
      intro e he e' he'
      rw [List.mem_singleton.mp he']
      exact ha.roster.fresh e he
    case signed =>
      refine List.pairwise_append.mpr ⟨ha.signed, List.pairwise_singleton .., ?_⟩
      intro c hc c' hc'
      rw [List.mem_singleton.mp hc']
      exact ha.signed_lt c hc
    case signed_lt =>
      intro c hc
      rcases List.mem_append.mp hc with hc | hc
      · exact Nat.lt_succ_of_lt (ha.signed_lt c hc)
      · rw [List.mem_singleton.mp hc]
        exact Nat.lt_succ_self _
    case held =>
      refine List.nodup_cons.mpr ⟨?_, ha.held⟩
      intro hid
      exact Nat.lt_irrefl _ (ha.held_lt _ hid)
    case held_lt =>
      intro id hid
      rcases List.mem_cons.mp hid with rfl | hid
      · exact Nat.lt_succ_self _
      · exact Nat.lt_succ_of_lt (ha.held_lt id hid)
    case calls_lt =>
      intro ids hids id hid
      exact Nat.lt_succ_of_lt (ha.calls_lt ids hids id hid)
  | @dropped r before behind calls signed id =>
    have hsub : (before ++ behind).Sublist (before ++ id :: behind) :=
      (List.sublist_cons_self _ _).append_left _
    exact { ha with
      roster := Roster.sound_release ha.roster id
      entries := pairwise_mapEntries ha.entries fun e => by split <;> rfl
      held := ha.held.sublist hsub
      held_lt := fun id hid => ha.held_lt id (hsub.mem hid) }
  | cleared =>
    exact { ha with
      roster := Roster.sound_clear
      entries := .nil
      signed := .nil
      signed_lt := fun _ hc => absurd hc List.not_mem_nil }
  | @drew r held calls signed =>
    refine { ha with
      roster := Roster.sound_pin (Roster.sound_prune ha.roster) _
      entries := pairwise_mapEntries (ha.entries.filter _) fun e => by split <;> rfl
      calls_lt := ?_ }
    intro ids hids id hid
    rcases List.mem_cons.mp hids with rfl | hids
    · -- whoever is on the new call list is listed
      obtain ⟨e, he, rfl⟩ := List.mem_map.mp hid
      exact ha.roster.fresh e (List.mem_filter.mp he).1
    · exact ha.calls_lt ids hids id hid
  | finished =>
    exact { ha with
      roster := Roster.sound_unpin ha.roster _
      entries := pairwise_mapEntries ha.entries fun e => by split <;> rfl
      calls_lt := fun ids hids => ha.calls_lt ids (List.mem_cons_of_mem _ hids) }

/-! ## Guards and pins -/

/-- **A move keeps guards and pins right.** -/
theorem Move.accurate (h : a.Move b) (hn : a.Numbered) (ha : a.Accurate) : b.Accurate := by
  cases h with
  | @subscribed r held calls signed k =>
    constructor
    case held_iff =>
      intro e he
      rcases List.mem_append.mp he with he | he
      · have hne : e.id ≠ r.next := Nat.ne_of_lt (hn.roster.fresh e he)
        simpa [hne] using ha.held_iff e he
      · rw [List.mem_singleton.mp he]
        simp
    case pins =>
      intro e he
      rcases List.mem_append.mp he with he | he
      · exact ha.pins e he
      · -- nobody has the new identity on a call list
        have hnone : ∀ ids ∈ calls, r.next ∉ ids := by
          intro ids hids hid
          exact Nat.lt_irrefl _ (hn.calls_lt ids hids _ hid)
        rw [List.mem_singleton.mp he]
        apply Eq.symm
        apply List.countP_eq_zero.mpr
        intro ids hids
        simpa using hnone ids hids
  | @dropped r before behind calls signed id =>
    -- a subscription is held once, so its identity is not among the others
    have hnot : id ∉ before ++ behind := (List.nodup_cons.mp (List.nodup_middle.mp hn.held)).1
    constructor
    case held_iff =>
      intro e he
      obtain ⟨e₀, he₀, rfl⟩ := List.mem_map.mp he
      by_cases hid : e₀.id = id
      · simpa [hid] using hnot
      · have hiff := ha.held_iff e₀ he₀
        simp only [if_neg hid]
        simpa [hid] using hiff
    case pins =>
      intro e he
      obtain ⟨e₀, he₀, rfl⟩ := List.mem_map.mp he
      have hpins := ha.pins e₀ he₀
      split <;> exact hpins
  | cleared => exact ⟨fun _ he => absurd he List.not_mem_nil, fun _ he => absurd he List.not_mem_nil⟩
  | @drew r held calls signed =>
    constructor
    case held_iff =>
      intro e he
      obtain ⟨e₀, he₀, rfl⟩ := List.mem_map.mp he
      have hiff := ha.held_iff e₀ (List.mem_filter.mp he₀).1
      split <;> exact hiff
    case pins =>
      intro e he
      obtain ⟨e₀, he₀, rfl⟩ := List.mem_map.mp he
      have hpins := ha.pins e₀ (List.mem_filter.mp he₀).1
      -- whoever is still listed is on the new call list
      have hmem : e₀.id ∈ r.live.map (·.id) := List.mem_map_of_mem he₀
      simp only [if_pos hmem]
      rw [List.countP_cons_of_pos (by simpa using hmem), hpins]
  | @finished r held ids calls signed =>
    constructor
    case held_iff =>
      intro e he
      obtain ⟨e₀, he₀, rfl⟩ := List.mem_map.mp he
      have hiff := ha.held_iff e₀ he₀
      split <;> exact hiff
    case pins =>
      intro e he
      obtain ⟨e₀, he₀, rfl⟩ := List.mem_map.mp he
      have hpins : e₀.pins = (ids :: calls).countP (e₀.id ∈ ·) := ha.pins e₀ he₀
      -- one pin less for whoever was on the call list that is over
      by_cases hid : e₀.id ∈ ids
      · rw [List.countP_cons_of_pos (by simpa using hid)] at hpins
        simp only [if_pos hid]
        omega
      · rw [List.countP_cons_of_neg (by simpa using hid)] at hpins
        simp only [if_neg hid]
        exact hpins

/-- **The live listeners are those that are due.** -/
theorem Accurate.isLive_iff (ha : a.Accurate) {e : Roster.Entry Listener} (he : e ∈ a.roster.entries) :
    e.isLive = true ↔ a.Due e.id := by
  simp only [Roster.Entry.isLive, Bool.or_eq_true, decide_eq_true_iff, ha.held_iff e he, ha.pins e he,
    List.countP_pos_iff, Due]

/-! ## Who is listed -/

/-- Nobody is signed anew, nobody becomes due, and whoever is due stays listed. -/
theorem Complete.of_same (ha : a.Complete) (hsigned : b.signed = a.signed) (hdue : ∀ id, b.Due id → a.Due id)
    (hlisted : ∀ e ∈ b.roster.entries, ∃ e₀ ∈ a.roster.entries, e₀.id = e.id ∧ e₀.listener = e.listener)
    (hkept : ∀ e₀ ∈ a.roster.entries, a.Due e₀.id → ∃ e ∈ b.roster.entries, e.id = e₀.id) : b.Complete := by
  constructor
  case listed =>
    intro e he
    obtain ⟨e₀, he₀, hid, hlistener⟩ := hlisted e he
    rw [hsigned, ← hid, ← hlistener]
    exact ha.listed e₀ he₀
  case kept =>
    intro c hc h
    obtain ⟨e₀, he₀, hid⟩ := ha.kept c (hsigned ▸ hc) (hdue _ h)
    rw [← hid]
    exact hkept e₀ he₀ (hid ▸ hdue _ h)

/-- **A move lists whom it signs, and keeps whoever is due.** -/
theorem Move.complete (h : a.Move b) (hn : a.Numbered) (hacc : a.Accurate) (ha : a.Complete) : b.Complete := by
  cases h with
  | @subscribed r held calls signed k =>
    constructor
    case listed =>
      intro e he
      rcases List.mem_append.mp he with he | he
      · obtain ⟨k', hk, hmem⟩ := ha.listed e he
        exact ⟨k', hk, List.mem_append_left _ hmem⟩
      · rw [List.mem_singleton.mp he]
        exact ⟨k, rfl, List.mem_append_right _ (List.mem_singleton_self _)⟩
    case kept =>
      intro c hc hdue
      rcases List.mem_append.mp hc with hc | hc
      · -- whoever was signed before is due for the same reason as before
        have hne : c.1 ≠ r.next := Nat.ne_of_lt (hn.signed_lt c hc)
        obtain ⟨e, he, hid⟩ := ha.kept c hc (hdue.imp_left fun hheld => (List.mem_cons.mp hheld).resolve_left hne)
        exact ⟨e, List.mem_append_left _ he, hid⟩
      · rw [List.mem_singleton.mp hc]
        exact ⟨_, List.mem_append_right _ (List.mem_singleton_self _), rfl⟩
  | @dropped r before behind calls signed id =>
    have hsub : (before ++ behind).Sublist (before ++ id :: behind) :=
      (List.sublist_cons_self _ _).append_left _
    refine ha.of_same rfl ?_ ?_ ?_
    · intro _ hdue
      exact hdue.imp_left hsub.mem
    · intro e he
      obtain ⟨e₀, he₀, rfl⟩ := List.mem_map.mp he
      exact ⟨e₀, he₀, by split <;> exact ⟨rfl, rfl⟩⟩
    · intro e₀ he₀ _
      exact ⟨_, List.mem_map_of_mem he₀, by split <;> rfl⟩
  | cleared => exact ⟨fun _ he => absurd he List.not_mem_nil, fun _ hc => absurd hc List.not_mem_nil⟩
  | @drew r held calls signed =>
    refine ha.of_same rfl ?_ ?_ ?_
    · intro id hdue
      rcases hdue with hheld | ⟨ids, hids, hid⟩
      · exact .inl hheld
      · rcases List.mem_cons.mp hids with rfl | hids
        · -- whoever is called is live, and was due before
          obtain ⟨e, he, rfl⟩ := List.mem_map.mp hid
          obtain ⟨he, hlive⟩ := List.mem_filter.mp he
          exact (hacc.isLive_iff he).mp hlive
        · exact .inr ⟨ids, hids, hid⟩
    · intro e he
      obtain ⟨e₀, he₀, rfl⟩ := List.mem_map.mp he
      exact ⟨e₀, (List.mem_filter.mp he₀).1, by split <;> exact ⟨rfl, rfl⟩⟩
    · -- sweeping takes nobody who is due
      intro e₀ he₀ hdue
      have hlive : e₀.isLive = true := (hacc.isLive_iff he₀).mpr hdue
      exact ⟨_, List.mem_map_of_mem (List.mem_filter.mpr ⟨he₀, hlive⟩), by split <;> rfl⟩
  | @finished r held ids calls signed =>
    refine ha.of_same rfl ?_ ?_ ?_
    · intro _ hdue
      rcases hdue with hheld | ⟨ids', hids, hid⟩
      · exact .inl hheld
      · exact .inr ⟨ids', List.mem_cons_of_mem _ hids, hid⟩
    · intro e he
      obtain ⟨e₀, he₀, rfl⟩ := List.mem_map.mp he
      exact ⟨e₀, he₀, by split <;> exact ⟨rfl, rfl⟩⟩
    · intro e₀ he₀ _
      exact ⟨_, List.mem_map_of_mem he₀, by split <;> rfl⟩

/-! ## Histories -/

theorem Move.sound (h : a.Move b) (ha : a.Sound) : b.Sound :=
  ⟨h.numbered ha.toNumbered, h.accurate ha.toNumbered ha.toAccurate,
    h.complete ha.toNumbered ha.toAccurate ha.toComplete⟩

theorem Moves.sound (h : a.Moves b) (ha : a.Sound) : b.Sound := by
  induction h with
  | refl => exact ha
  | tail _ hlast ih => exact hlast.sound ih

theorem Moves.single (h : a.Move b) : a.Moves b := (Moves.refl a).tail h

theorem Moves.trans {c : Ledger} (h : a.Moves b) (h' : b.Moves c) : a.Moves c := by
  induction h' with
  | refl => exact h
  | tail _ hlast ih => exact ih.tail hlast

/-- **Whom the next emission calls**: the signed callbacks that are due, in order. -/
theorem Sound.live_eq (ha : a.Sound) :
    a.roster.live.map (fun e => (e.id, e.listener)) =
      (a.signed.filter fun c => a.Due c.1).map fun c => (c.1, .callback c.2) := by
  have hlive : (a.roster.live.map fun e => (e.id, e.listener)).Pairwise (·.1 < ·.1) :=
    List.pairwise_map.mpr (ha.entries.filter _)
  have hdue : ((a.signed.filter fun c => a.Due c.1).map fun c => (c.1, Listener.callback c.2)).Pairwise
      (·.1 < ·.1) := List.pairwise_map.mpr (ha.signed.filter _)
  have nodup {l : List (Nat × Listener)} (h : l.Pairwise (·.1 < ·.1)) : l.Nodup :=
    h.imp fun hlt heq => Nat.ne_of_lt hlt (congrArg Prod.fst heq)
  have hids : (a.signed.map Prod.fst).Nodup := List.pairwise_map.mpr (ha.signed.imp fun hlt => Nat.ne_of_lt hlt)
  -- two lists in order of identity are equal if they have the same members
  refine List.Perm.eq_of_pairwise (fun _ _ _ _ h h' => absurd h (Nat.lt_asymm h')) hlive hdue
    ((List.perm_ext_iff_of_nodup (nodup hlive) (nodup hdue)).mpr ?_)
  rintro ⟨id, l⟩
  constructor
  · intro hmem
    obtain ⟨e, he, heq⟩ := List.mem_map.mp hmem
    obtain ⟨rfl, rfl⟩ := Prod.mk.inj heq
    obtain ⟨he, hislive⟩ := List.mem_filter.mp he
    obtain ⟨k, hk, hsigned⟩ := ha.listed e he
    have hdue : a.Due e.id := (ha.isLive_iff he).mp hislive
    exact List.mem_map.mpr ⟨(e.id, k), List.mem_filter.mpr ⟨hsigned, decide_eq_true hdue⟩, by rw [hk]⟩
  · intro hmem
    obtain ⟨c, hc, heq⟩ := List.mem_map.mp hmem
    obtain ⟨rfl, rfl⟩ := Prod.mk.inj heq
    obtain ⟨hc, hdue⟩ := List.mem_filter.mp hc
    have hdue := of_decide_eq_true hdue
    obtain ⟨e, he, hid⟩ := ha.kept c hc hdue
    -- an identity is that of one callback
    obtain ⟨k, hk, hsigned⟩ := ha.listed e he
    have hsame : (e.id, k) = c := List.inj_on_of_nodup_map hids hsigned hc hid
    refine List.mem_map.mpr ⟨e, List.mem_filter.mpr ⟨he, (ha.isLive_iff he).mpr (hid ▸ hdue)⟩, ?_⟩
    rw [hk, ← hsame]

end Ledger

end Databind
