import Mathlib.Data.List.Nodup
import Databind.Roster

/-!
# `Proofs.Roster` — what a roster holds

Whether a guard is held says nothing about pins, and drawing up a call list changes nothing but pins and
dead entries. A roster is therefore seen through `Holds` (which listeners have their guard held, and under
which identity) and through a bound on its pins, `PinsBelow`; each operation has one law for either view.
`Sound` says that identities are distinct and never given out again.
-/

namespace Databind.Roster

variable {α β : Type}

/-- The guard of a listener is held under an identity. -/
def Holds (r : Roster α) (id : Nat) (a : α) : Prop :=
  ∃ e ∈ r.entries, e.id = id ∧ e.listener = a ∧ e.held = true

/-- Identities are distinct, and below the next one. -/
structure Sound (r : Roster α) : Prop where
  nodup : (r.entries.map (·.id)).Nodup
  fresh : ∀ e ∈ r.entries, e.id < r.next

/-- No listener is pinned more often than a bound on its identity allows. -/
def PinsBelow (r : Roster α) (bound : Nat → Nat) : Prop := ∀ e ∈ r.entries, e.pins ≤ bound e.id

/-- Identities once given out are not given out again: what is held under one was held before. -/
structure Grows (r r' : Roster α) : Prop where
  next : r.next ≤ r'.next
  held : ∀ id a, id < r.next → r'.Holds id a → r.Holds id a
  listed : ∀ e ∈ r'.entries, e.id < r.next → ∃ e₀ ∈ r.entries, e₀.id = e.id ∧ e₀.listener = e.listener

/-- The roster with every listener seen as something else. -/
def map (f : α → β) (r : Roster α) : Roster β :=
  ⟨r.entries.map fun e => ⟨e.id, f e.listener, e.held, e.pins⟩, r.next⟩

/-! ## Entries after a change -/

/-- Changing entries one by one keeps a roster sound if it keeps their identities. -/
theorem sound_mapEntries {r : Roster α} (h : r.Sound) {f : Entry α → Entry α} (hid : ∀ e, (f e).id = e.id) :
    (⟨r.entries.map f, r.next⟩ : Roster α).Sound := by
  have hids : (r.entries.map f).map (·.id) = r.entries.map (·.id) := by
    rw [List.map_map]
    exact List.map_congr_left fun e _ => hid e
  refine ⟨by rw [hids]; exact h.nodup, fun e he => ?_⟩
  obtain ⟨e₀, he₀, rfl⟩ := List.mem_map.mp he
  rw [hid e₀]
  exact h.fresh e₀ he₀

/-- Entries may be struck off: the others have the identities that they had. -/
theorem sound_filterEntries {r : Roster α} (h : r.Sound) (p : Entry α → Bool) :
    (⟨r.entries.filter p, r.next⟩ : Roster α).Sound :=
  ⟨h.nodup.sublist (List.filter_sublist.map _), fun e he => h.fresh e (List.mem_filter.mp he).1⟩

/-- Changing entries one by one changes nothing that is held if it keeps all but the pins. -/
theorem holds_mapEntries (r : Roster α) {f : Entry α → Entry α} (hid : ∀ e, (f e).id = e.id)
    (hlistener : ∀ e, (f e).listener = e.listener) (hheld : ∀ e, (f e).held = e.held) {id : Nat} {a : α} :
    (⟨r.entries.map f, r.next⟩ : Roster α).Holds id a ↔ r.Holds id a := by
  constructor
  · rintro ⟨e, he, h⟩
    obtain ⟨e₀, he₀, rfl⟩ := List.mem_map.mp he
    exact ⟨e₀, he₀, by rw [← hid e₀, ← hlistener e₀, ← hheld e₀]; exact h⟩
  · rintro ⟨e, he, h⟩
    exact ⟨f e, List.mem_map_of_mem he, by rw [hid e, hlistener e, hheld e]; exact h⟩

/-! ## Held guards -/

theorem holds_empty {id : Nat} {a : α} : ¬(empty : Roster α).Holds id a := by
  rintro ⟨e, he, -⟩
  exact absurd he (by simp [empty])

/-- **A subscription adds one held guard, under the next identity.** -/
theorem holds_subscribe (r : Roster α) (a : α) {id : Nat} {b : α} :
    (r.subscribe a).Holds id b ↔ r.Holds id b ∨ id = r.next ∧ b = a := by
  unfold Holds subscribe
  constructor
  · rintro ⟨e, he, hid, hb, hheld⟩
    rcases List.mem_append.mp he with he | he
    · exact Or.inl ⟨e, he, hid, hb, hheld⟩
    · rw [List.mem_singleton] at he
      subst he
      exact Or.inr ⟨hid.symm, hb.symm⟩
  · rintro (⟨e, he, h⟩ | ⟨rfl, rfl⟩)
    · exact ⟨e, List.mem_append_left _ he, h⟩
    · exact ⟨_, List.mem_append_right _ (List.mem_singleton_self _), rfl, rfl, rfl⟩

/-- **Dropping a guard takes away what was held under its identity, and nothing else.** -/
theorem holds_release (r : Roster α) (i : Nat) {id : Nat} {a : α} :
    (r.release i).Holds id a ↔ r.Holds id a ∧ id ≠ i := by
  unfold Holds release modify
  constructor
  · rintro ⟨e, he, hid, ha, hheld⟩
    obtain ⟨e₀, he₀, rfl⟩ := List.mem_map.mp he
    by_cases h : e₀.id = i
    · simp [h] at hheld
    · rw [if_neg h] at hid ha hheld
      exact ⟨⟨e₀, he₀, hid, ha, hheld⟩, hid ▸ h⟩
  · rintro ⟨⟨e, he, hid, ha, hheld⟩, hne⟩
    refine ⟨e, List.mem_map.mpr ⟨e, he, if_neg (hid ▸ hne)⟩, hid, ha, hheld⟩

/-- A roster that is cleared holds nobody, whether or not the guards were dropped. -/
theorem holds_clear (r : Roster α) {id : Nat} {a : α} : ¬r.clear.Holds id a := by
  rintro ⟨e, he, -⟩
  exact absurd he (by simp [clear])

/-- Pruning strikes off only those whose guard was dropped. -/
theorem holds_prune (r : Roster α) {id : Nat} {a : α} : r.prune.Holds id a ↔ r.Holds id a := by
  unfold Holds prune
  constructor
  · rintro ⟨e, he, h⟩
    exact ⟨e, (List.mem_filter.mp he).1, h⟩
  · rintro ⟨e, he, h⟩
    exact ⟨e, List.mem_filter.mpr ⟨he, by simp [Entry.isLive, h.2.2]⟩, h⟩

/-- A pin does not hold anybody: it only keeps the entry on the list. -/
theorem holds_pin (r : Roster α) (ids : List Nat) {id : Nat} {a : α} :
    (r.pin ids).Holds id a ↔ r.Holds id a :=
  holds_mapEntries r (fun e => by split <;> rfl) (fun e => by split <;> rfl) (fun e => by split <;> rfl)

theorem holds_unpin (r : Roster α) (ids : List Nat) {id : Nat} {a : α} :
    (r.unpin ids).Holds id a ↔ r.Holds id a :=
  holds_mapEntries r (fun e => by split <;> rfl) (fun e => by split <;> rfl) (fun e => by split <;> rfl)

/-- What is held under an identity is below the next one. -/
theorem Sound.lt_next {r : Roster α} (h : r.Sound) {id : Nat} {a : α} (hh : r.Holds id a) :
    id < r.next := by
  obtain ⟨e, he, rfl, -⟩ := hh
  exact h.fresh e he

/-- An identity is that of one listener. -/
theorem Sound.holds_unique {r : Roster α} (h : r.Sound) {id : Nat} {a b : α} (ha : r.Holds id a)
    (hb : r.Holds id b) : a = b := by
  obtain ⟨e, he, hid, rfl, -⟩ := ha
  obtain ⟨e', he', hid', rfl, -⟩ := hb
  rw [List.inj_on_of_nodup_map h.nodup he he' (hid.trans hid'.symm)]

/-! ## Sound rosters -/

/-- Nobody is listed on an empty roster. -/
theorem sound_empty : (empty : Roster α).Sound := ⟨List.nodup_nil, fun e he => absurd he (by simp [empty])⟩

/-- **A new listener** gets an identity that was not given out before. -/
theorem sound_subscribe {r : Roster α} (h : r.Sound) (a : α) : (r.subscribe a).Sound := by
  unfold subscribe
  refine ⟨?_, fun e he => ?_⟩
  · rw [List.map_append]
    refine List.nodup_append.mpr ⟨h.nodup, by simp, ?_⟩
    intro i hi j hj
    obtain ⟨e, he, rfl⟩ := List.mem_map.mp hi
    have hlt := h.fresh e he
    simp only [List.map_cons, List.map_nil, List.mem_singleton] at hj
    omega
  · rcases List.mem_append.mp he with he | he
    · exact Nat.lt_succ_of_lt (h.fresh e he)
    · rw [List.mem_singleton] at he
      subst he
      exact Nat.lt_succ_self _

theorem sound_release {r : Roster α} (h : r.Sound) (i : Nat) : (r.release i).Sound :=
  sound_mapEntries h fun e => by split <;> rfl

theorem sound_prune {r : Roster α} (h : r.Sound) : r.prune.Sound := sound_filterEntries h _

/-- Clearing forgets all, but does not give identities out again. -/
theorem sound_clear {r : Roster α} : r.clear.Sound :=
  ⟨List.nodup_nil, fun e he => absurd he (by simp [clear])⟩

theorem sound_pin {r : Roster α} (h : r.Sound) (ids : List Nat) : (r.pin ids).Sound :=
  sound_mapEntries h fun e => by split <;> rfl

theorem sound_unpin {r : Roster α} (h : r.Sound) (ids : List Nat) : (r.unpin ids).Sound :=
  sound_mapEntries h fun e => by split <;> rfl

/-! ## Pins -/

theorem pinsBelow_empty (bound : Nat → Nat) : (empty : Roster α).PinsBelow bound := fun e he =>
  absurd he (by simp [empty])

/-- More call lists may pin more. -/
theorem PinsBelow.mono {r : Roster α} {bound bound' : Nat → Nat} (h : r.PinsBelow bound)
    (hle : ∀ id, bound id ≤ bound' id) : r.PinsBelow bound' := fun e he =>
  Nat.le_trans (h e he) (hle e.id)

/-- A new listener is on no call list. -/
theorem PinsBelow.subscribe {r : Roster α} {bound : Nat → Nat} (h : r.PinsBelow bound) (a : α) :
    (r.subscribe a).PinsBelow bound := by
  intro e he
  rcases List.mem_append.mp he with he | he
  · exact h e he
  · rw [List.mem_singleton] at he
    subst he
    exact Nat.zero_le _

theorem PinsBelow.release {r : Roster α} {bound : Nat → Nat} (h : r.PinsBelow bound) (i : Nat) :
    (r.release i).PinsBelow bound := by
  intro e he
  obtain ⟨e₀, he₀, rfl⟩ := List.mem_map.mp he
  by_cases hid : e₀.id = i
  · rw [if_pos hid]
    exact h e₀ he₀
  · rw [if_neg hid]
    exact h e₀ he₀

theorem PinsBelow.prune {r : Roster α} {bound : Nat → Nat} (h : r.PinsBelow bound) :
    r.prune.PinsBelow bound := fun e he => h e (List.mem_filter.mp he).1

/-- Whoever was pinned is not listed any more. -/
theorem pinsBelow_clear (r : Roster α) (bound : Nat → Nat) : r.clear.PinsBelow bound := fun e he =>
  absurd he (by simp [clear])

/-- Pinning a call list raises the bound by one on its members. -/
theorem PinsBelow.pin {r : Roster α} {bound : Nat → Nat} (h : r.PinsBelow bound) (ids : List Nat) :
    (r.pin ids).PinsBelow fun id => bound id + if id ∈ ids then 1 else 0 := by
  intro e he
  obtain ⟨e₀, he₀, rfl⟩ := List.mem_map.mp he
  have hle := h e₀ he₀
  by_cases hid : e₀.id ∈ ids
  · simp only [if_pos hid]
    omega
  · simp only [if_neg hid]
    omega

/-- Taking a call list back lowers it again. -/
theorem PinsBelow.unpin {r : Roster α} {bound : Nat → Nat} {ids : List Nat}
    (h : r.PinsBelow fun id => bound id + if id ∈ ids then 1 else 0) : (r.unpin ids).PinsBelow bound := by
  intro e he
  obtain ⟨e₀, he₀, rfl⟩ := List.mem_map.mp he
  have hle := h e₀ he₀
  by_cases hid : e₀.id ∈ ids
  · simp only [if_pos hid] at hle ⊢
    omega
  · simp only [if_neg hid] at hle ⊢
    omega

/-- Without pins, the live listeners are those whose guard is held. -/
theorem isLive_eq_held {r : Roster α} (h : r.PinsBelow fun _ => 0) {e : Entry α} (he : e ∈ r.entries) :
    e.isLive = e.held := by
  have hpins : ¬0 < e.pins := Nat.not_lt.mpr (h e he)
  simp [Entry.isLive, hpins]

/-! ## Growth -/

theorem Grows.refl (r : Roster α) : r.Grows r := ⟨Nat.le_refl _, fun _ _ _ h => h, fun e he _ => ⟨e, he, rfl, rfl⟩⟩

/-- **Growth composes**: whoever is listed at the end under an old identity was listed under it all along. -/
theorem Grows.trans {a b c : Roster α} (h : a.Grows b) (h' : b.Grows c) : a.Grows c where
  next := Nat.le_trans h.next h'.next
  held id x hlt hx := h.held id x hlt (h'.held id x (Nat.lt_of_lt_of_le hlt h.next) hx)
  listed e he hlt := by
    obtain ⟨e₁, he₁, hid, hlistener⟩ := h'.listed e he (Nat.lt_of_lt_of_le hlt h.next)
    obtain ⟨e₀, he₀, hid', hlistener'⟩ := h.listed e₁ he₁ (hid.symm ▸ hlt)
    exact ⟨e₀, he₀, hid'.trans hid, hlistener'.trans hlistener⟩

/-- A new listener comes behind, and takes nobody's identity. -/
theorem grows_subscribe (r : Roster α) (a : α) : r.Grows (r.subscribe a) := by
  refine ⟨Nat.le_succ _, fun id x hlt hx => ?_, fun e he hlt => ?_⟩
  · rcases (holds_subscribe r a).mp hx with hx | ⟨hid, -⟩
    · exact hx
    · omega
  · rcases List.mem_append.mp he with he | he
    · exact ⟨e, he, rfl, rfl⟩
    · obtain rfl := List.mem_singleton.mp he
      exact absurd hlt (Nat.lt_irrefl _)

/-- Changing entries one by one lists nobody new. -/
theorem listed_map {r : Roster α} {f : Entry α → Entry α} (hf : ∀ e, (f e).id = e.id ∧ (f e).listener = e.listener)
    {e : Entry α} (he : e ∈ r.entries.map f) : ∃ e₀ ∈ r.entries, e₀.id = e.id ∧ e₀.listener = e.listener := by
  obtain ⟨e₀, he₀, rfl⟩ := List.mem_map.mp he
  exact ⟨e₀, he₀, (hf e₀).1.symm, (hf e₀).2.symm⟩

/-- A listener whose guard is dropped may stay listed, but nobody takes its place. -/
theorem grows_release (r : Roster α) (i : Nat) : r.Grows (r.release i) :=
  ⟨Nat.le_refl _, fun _ _ _ hx => ((holds_release r i).mp hx).1,
    fun _ he _ => listed_map (fun e => by split <;> exact ⟨rfl, rfl⟩) he⟩

/-- A roster that is cleared lists nobody, and counts on. -/
theorem grows_clear (r : Roster α) : r.Grows r.clear :=
  ⟨Nat.le_refl _, fun _ _ _ hx => absurd hx (holds_clear r), fun _ he _ => absurd he List.not_mem_nil⟩

/-- Drawing up a call list strikes off those that are done for. -/
theorem grows_draw (r : Roster α) (ids : List Nat) : r.Grows (r.prune.pin ids) := by
  refine ⟨Nat.le_refl _, fun _ _ _ hx => (holds_prune r).mp ((holds_pin _ ids).mp hx), fun e he _ => ?_⟩
  obtain ⟨e₀, he₀, hid, hlistener⟩ := listed_map (r := r.prune) (fun e => by split <;> exact ⟨rfl, rfl⟩) he
  exact ⟨e₀, (List.mem_filter.mp he₀).1, hid, hlistener⟩

theorem grows_unpin (r : Roster α) (ids : List Nat) : r.Grows (r.unpin ids) :=
  ⟨Nat.le_refl _, fun _ _ _ hx => (holds_unpin r ids).mp hx,
    fun _ he _ => listed_map (fun e => by split <;> exact ⟨rfl, rfl⟩) he⟩

/-! ## Rosters of another kind of listener -/

/-- The count of identities has nothing to do with the kind of listener. -/
theorem next_map (f : α → β) (r : Roster α) : (r.map f).next = r.next := rfl

/-- **The operations of a roster do not look at the listeners**: subscribing is the same for any kind of them. -/
theorem map_subscribe (f : α → β) (r : Roster α) (a : α) :
    (r.subscribe a).map f = (r.map f).subscribe (f a) := by
  simp [map, subscribe]

theorem map_clear (f : α → β) (r : Roster α) : r.clear.map f = (r.map f).clear := rfl

theorem map_release (f : α → β) (r : Roster α) (i : Nat) :
    (r.release i).map f = (r.map f).release i := by
  simp only [map, release, modify, List.map_map, Function.comp_def, mk.injEq, and_true]
  exact List.map_congr_left fun e _ => by split <;> rfl

/-- Who is struck off depends on guards and pins only. -/
theorem map_prune (f : α → β) (r : Roster α) : r.prune.map f = (r.map f).prune := by
  simp only [map, prune, List.filter_map, Function.comp_def]
  rfl

theorem map_pin (f : α → β) (r : Roster α) (ids : List Nat) : (r.pin ids).map f = (r.map f).pin ids := by
  simp only [map, pin, List.map_map, Function.comp_def, mk.injEq, and_true]
  exact List.map_congr_left fun e _ => by split <;> rfl

theorem map_unpin (f : α → β) (r : Roster α) (ids : List Nat) :
    (r.unpin ids).map f = (r.map f).unpin ids := by
  simp only [map, unpin, List.map_map, Function.comp_def, mk.injEq, and_true]
  exact List.map_congr_left fun e _ => by split <;> rfl

/-- The same identities are live. -/
theorem live_map (f : α → β) (r : Roster α) : (r.map f).live.map (·.id) = r.live.map (·.id) := by
  simp only [live, map, List.filter_map, List.map_map, Function.comp_def]
  rfl

/-- Soundness is about identities, so it may be read off a roster of another kind. -/
theorem sound_of_map {f : α → β} {r : Roster α} (h : (r.map f).Sound) : r.Sound := by
  refine ⟨?_, fun e he => h.fresh _ (List.mem_map_of_mem he)⟩
  have hids := h.nodup
  rwa [map, List.map_map] at hids

theorem PinsBelow.of_map {f : α → β} {r : Roster α} {bound : Nat → Nat} (h : (r.map f).PinsBelow bound) :
    r.PinsBelow bound := fun _ he => h _ (List.mem_map_of_mem he)

/-- **A listener is held** under an identity if what is made of it is, provided that different ones are made
different. -/
theorem holds_map {f : α → β} (hf : Function.Injective f) (r : Roster α) {id : Nat} {a : α} :
    (r.map f).Holds id (f a) ↔ r.Holds id a := by
  constructor
  · rintro ⟨_, hmem, hid, hlistener, hheld⟩
    obtain ⟨e, he, rfl⟩ := List.mem_map.mp hmem
    exact ⟨e, he, hid, hf hlistener, hheld⟩
  · rintro ⟨e, he, hid, hlistener, hheld⟩
    exact ⟨_, List.mem_map_of_mem he, hid, congrArg f hlistener, hheld⟩

/-! ## Live listeners -/

/-- **Without pins, the live listeners of a kind are those of the kind that hold**, each once. -/
theorem live_perm {r : Roster α} (hr : r.Sound) (hpins : r.PinsBelow fun _ => 0) {p : Nat → α → Bool}
    {xs : List (Nat × α)} (hxs : xs.Nodup)
    (h : ∀ id a, (id, a) ∈ xs ↔ r.Holds id a ∧ p id a = true) :
    ((r.live.filter fun e => p e.id e.listener).map fun e => (e.id, e.listener)).Perm xs := by
  have hlive : r.live.Sublist r.entries := List.filter_sublist
  have hids : (((r.live.filter fun e => p e.id e.listener).map fun e => (e.id, e.listener)).map
      Prod.fst).Nodup := by
    rw [List.map_map]
    exact hr.nodup.sublist ((List.filter_sublist.trans hlive).map _)
  refine (List.perm_ext_iff_of_nodup (List.Nodup.of_map _ hids) hxs).mpr ?_
  rintro ⟨id, a⟩
  rw [h, List.mem_map]
  constructor
  · rintro ⟨e, he, heq⟩
    obtain ⟨rfl, rfl⟩ := Prod.mk.inj heq
    obtain ⟨hmem, hp⟩ := List.mem_filter.mp he
    obtain ⟨hmem, hislive⟩ := List.mem_filter.mp hmem
    exact ⟨⟨e, hmem, rfl, rfl, (isLive_eq_held hpins hmem).symm.trans hislive⟩, hp⟩
  · rintro ⟨⟨e, hmem, rfl, rfl, hheld⟩, hp⟩
    have hislive : e.isLive = true := (isLive_eq_held hpins hmem).trans hheld
    exact ⟨e, List.mem_filter.mpr ⟨List.mem_filter.mpr ⟨hmem, hislive⟩, hp⟩, rfl⟩

end Databind.Roster
