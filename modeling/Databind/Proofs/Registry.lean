import Mathlib.Data.List.Nodup
import Databind.Registry

/-!
# `Proofs.Registry` — the entries of a registry

`Sound` is what holds of a registry between two operations of its binder: one entry a record, none of them
empty, each with bindings of its own record under distinct keys. Every operation is described by what it does
to the bindings of a record (`bindingsOf`), and keeps a registry sound; an entry that has just been opened is
empty until its first binding is added, which `Tidy` allows.
-/

namespace Databind.Registry

/-- Bindings of the entry's own record, under distinct keys. -/
structure Entry.Tidy (e : Entry) : Prop where
  own : ∀ b ∈ e.bindings, b.record = e.record
  keys : (e.bindings.map (·.key)).Nodup

/-- One entry a record, each of them tidy. -/
structure Tidy (r : Registry) : Prop where
  records : (r.map (·.record)).Nodup
  entries : ∀ e ∈ r, e.Tidy

/-- A tidy registry without empty entries. -/
structure Sound (r : Registry) : Prop extends Tidy r where
  nonempty : ∀ e ∈ r, e.bindings ≠ []

variable {r : Registry}

/-! ## Entries -/

theorem entryOf?_eq_some {id : RecordId} {e : Entry} (h : r.entryOf? id = some e) : e ∈ r ∧ e.record = id :=
  ⟨List.mem_of_find?_eq_some h, by simpa using List.find?_some h⟩

/-- **Where no record has two entries**, the entry that is found is the only one of its record. -/
theorem entryOf?_eq_some_iff (hr : (r.map (·.record)).Nodup) {id : RecordId} {e : Entry} :
    r.entryOf? id = some e ↔ e ∈ r ∧ e.record = id := by
  constructor
  · exact entryOf?_eq_some
  · rintro ⟨he, rfl⟩
    cases hfound : r.entryOf? e.record with
    | none =>
      have hnone := List.find?_eq_none.mp hfound e he
      simp at hnone
    | some e' =>
      obtain ⟨he', hrecord⟩ := entryOf?_eq_some hfound
      rw [List.inj_on_of_nodup_map hr he' he hrecord]

theorem entryOf?_eq_none_iff {id : RecordId} : r.entryOf? id = none ↔ ∀ e ∈ r, e.record ≠ id := by
  simp [entryOf?]

theorem bindingsOf_of_entryOf? {id : RecordId} {e : Entry} (h : r.entryOf? id = some e) :
    r.bindingsOf id = e.bindings := by
  simp [bindingsOf, h]

theorem bindingsOf_of_none {id : RecordId} (h : r.entryOf? id = none) : r.bindingsOf id = [] := by
  simp [bindingsOf, h]

theorem mem_bindings {b : Binding} : b ∈ r.bindings ↔ ∃ e ∈ r, b ∈ e.bindings := List.mem_flatMap

/-- **A binding stands under its own record.** -/
theorem Tidy.mem_bindingsOf (h : r.Tidy) {b : Binding} {id : RecordId} :
    b ∈ r.bindingsOf id ↔ b ∈ r.bindings ∧ b.record = id := by
  rw [mem_bindings]
  constructor
  · intro hb
    cases hfound : r.entryOf? id with
    | none => simp [bindingsOf_of_none hfound] at hb
    | some e =>
      rw [bindingsOf_of_entryOf? hfound] at hb
      obtain ⟨he, rfl⟩ := entryOf?_eq_some hfound
      exact ⟨⟨e, he, hb⟩, (h.entries e he).own b hb⟩
  · rintro ⟨⟨e, he, hb⟩, rfl⟩
    have hfound := (entryOf?_eq_some_iff h.records).mpr ⟨he, rfl⟩
    rw [(h.entries e he).own b hb, bindingsOf_of_entryOf? hfound]
    exact hb

/-! ## Opening an entry -/

theorem openEntry_perm (e : Entry) (r : Registry) : (openEntry e r).Perm (e :: r) := by
  induction r with
  | nil => exact List.Perm.refl _
  | cons x rest ih =>
    unfold openEntry
    split
    · exact List.Perm.refl _
    · exact (ih.cons x).trans (List.Perm.swap e x rest)

/-- An entry that is opened is found under its record, and the others as before. -/
theorem entryOf?_openEntry {e : Entry} (hno : r.entryOf? e.record = none) (id : RecordId) :
    (openEntry e r).entryOf? id = if id = e.record then some e else r.entryOf? id := by
  induction r with
  | nil =>
    by_cases hid : id = e.record
    · simp [openEntry, entryOf?, hid]
    · have hne : ¬e.record = id := fun h => hid h.symm
      simp [openEntry, entryOf?, hid, hne]
  | cons x rest ih =>
    have hx : ¬x.record = e.record := entryOf?_eq_none_iff.mp hno x List.mem_cons_self
    have hrest : entryOf? rest e.record = none :=
      entryOf?_eq_none_iff.mpr fun y hy => entryOf?_eq_none_iff.mp hno y (List.mem_cons_of_mem _ hy)
    unfold openEntry
    split
    · by_cases hid : id = e.record
      · simp [entryOf?, hid]
      · have hne : ¬e.record = id := fun h => hid h.symm
        simp [entryOf?, hid, hne]
    · have ih := ih hrest
      unfold entryOf? at ih ⊢
      rw [List.find?_cons, List.find?_cons, ih]
      by_cases hid : id = e.record
      · subst hid
        simp [hx]
      · simp [hid]

/-- Opening an empty entry adds no binding. -/
theorem bindingsOf_openEntry {e : Entry} (hno : r.entryOf? e.record = none) (hempty : e.bindings = [])
    (id : RecordId) : (openEntry e r).bindingsOf id = r.bindingsOf id := by
  unfold bindingsOf
  rw [entryOf?_openEntry hno]
  by_cases hid : id = e.record
  · simp [hid, hno, hempty]
  · simp [hid]

/-- An entry is opened for a record that has none, and before it has bindings. -/
theorem tidy_openEntry (h : r.Tidy) {e : Entry} (hno : r.entryOf? e.record = none) (hempty : e.bindings = []) :
    (openEntry e r).Tidy := by
  have hperm := openEntry_perm e r
  refine ⟨?_, fun x hx => ?_⟩
  · rw [(hperm.map _).nodup_iff, List.map_cons, List.nodup_cons]
    refine ⟨fun hmem => ?_, h.records⟩
    obtain ⟨x, hx, hrecord⟩ := List.mem_map.mp hmem
    exact entryOf?_eq_none_iff.mp hno x hx hrecord
  · rcases List.mem_cons.mp (hperm.mem_iff.mp hx) with rfl | hx
    · exact ⟨by simp [hempty], by simp [hempty]⟩
    · exact h.entries x hx

/-! ## Changing an entry -/

section Modify

variable (f : Entry → Entry) (hf : ∀ e, (f e).record = e.record)
include hf

/-- A change of an entry is seen under its record only. -/
theorem entryOf?_modify (id id' : RecordId) :
    (r.modify id f).entryOf? id' = if id' = id then (r.entryOf? id).map f else r.entryOf? id' := by
  induction r with
  | nil => simp [modify, entryOf?]
  | cons x rest ih =>
    unfold modify entryOf? at ih ⊢
    rw [List.map_cons, List.find?_cons, List.find?_cons, List.find?_cons, ih]
    by_cases hx : x.record = id
    · by_cases hid : id' = id
      · simp [hx, hid, hf]
      · have hne : ¬id = id' := fun h => hid h.symm
        simp [hx, hid, hf, hne]
    · by_cases hid : id' = id
      · simp [hx, hid]
      · simp [hx, hid]

/-- Whether a registry is tidy is said entry by entry. -/
theorem tidy_modify (h : r.Tidy) (id : RecordId) (htidy : ∀ e ∈ r, e.record = id → (f e).Tidy) :
    (r.modify id f).Tidy := by
  refine ⟨?_, fun x hx => ?_⟩
  · have hids : (r.modify id f).map (·.record) = r.map (·.record) := by
      unfold modify
      rw [List.map_map]
      refine List.map_congr_left fun e _ => ?_
      by_cases he : e.record = id
      · simp [he, hf]
      · simp [he]
    rw [hids]
    exact h.records
  · obtain ⟨e, he, rfl⟩ := List.mem_map.mp hx
    by_cases hid : e.record = id
    · rw [if_pos hid]
      exact htidy e he hid
    · rw [if_neg hid]
      exact h.entries e he

end Modify

/-- The entry of a record stands between others, which changing or closing it leaves as they are. -/
theorem Tidy.split (h : r.Tidy) {id : RecordId} {e : Entry} (he : r.entryOf? id = some e) :
    ∃ before behind, r = before ++ e :: behind ∧ (∀ f, r.modify id f = before ++ f e :: behind) ∧
      r.close id = before ++ behind := by
  obtain ⟨hmem, hid⟩ := entryOf?_eq_some he
  obtain ⟨before, behind, rfl⟩ := List.append_of_mem hmem
  have hnodup := h.records
  rw [List.map_append, List.map_cons, List.nodup_middle, List.nodup_cons, ← List.map_append] at hnodup
  have hother : ∀ x ∈ before ++ behind, x.record ≠ id := fun x hx hrecord =>
    hnodup.1 (List.mem_map.mpr ⟨x, hx, hrecord.trans hid.symm⟩)
  have hbefore : ∀ x ∈ before, x.record ≠ id := fun x hx => hother x (List.mem_append_left _ hx)
  have hbehind : ∀ x ∈ behind, x.record ≠ id := fun x hx => hother x (List.mem_append_right _ hx)
  have hmap : ∀ (f : Entry → Entry) (xs : List Entry), (∀ x ∈ xs, x.record ≠ id) →
      xs.map (fun x => if x.record = id then f x else x) = xs := by
    intro f xs hxs
    conv => rhs; rw [← List.map_id xs]
    exact List.map_congr_left fun x hx => if_neg (hxs x hx)
  refine ⟨before, behind, rfl, fun f => ?_, ?_⟩
  · unfold modify
    rw [List.map_append, List.map_cons, hmap f before hbefore, hmap f behind hbehind, if_pos hid]
  · unfold close
    rw [List.filter_append, List.filter_cons_of_neg (by simp [hid]),
      List.filter_eq_self.mpr fun x hx => by simp [hbefore x hx],
      List.filter_eq_self.mpr fun x hx => by simp [hbehind x hx]]

/-- Bindings under distinct keys are the one under a key, if there is one, and those under other keys. -/
theorem perm_filter_key {bs : List Binding} (h : (bs.map (·.key)).Nodup) (key : BindingKey) :
    bs.Perm (bs.filter (·.key ≠ key) ++ (bs.find? (·.key = key)).toList) := by
  induction bs with
  | nil => exact List.Perm.refl _
  | cons b rest ih =>
    rw [List.map_cons, List.nodup_cons] at h
    by_cases hkey : b.key = key
    · have hrest : rest.filter (·.key ≠ key) = rest := by
        refine List.filter_eq_self.mpr fun x hx => decide_eq_true fun hx' => h.1 ?_
        exact List.mem_map.mpr ⟨x, hx, hx'.trans hkey.symm⟩
      rw [List.filter_cons_of_neg (by simp [hkey]), List.find?_cons_of_pos (by simp [hkey]), hrest]
      exact (List.perm_append_singleton b rest).symm
    · rw [List.filter_cons_of_pos (by simp [hkey]), List.find?_cons_of_neg (by simp [hkey])]
      exact (ih h.2).cons b

/-! ## Adding a binding -/

/-- An entry with a binding added at the end, in place of the one under its key. -/
def Entry.add (e : Entry) (b : Binding) : Entry :=
  { e with bindings := e.bindings.filter (·.key ≠ b.key) ++ [b] }

/-- **A new binding stands last, and the one it replaces is gone.** -/
theorem bindingsOf_insert {b : Binding} (hhas : r.has b.record = true) (id : RecordId) :
    (r.insert b).bindingsOf id =
      if id = b.record then (r.bindingsOf id).filter (·.key ≠ b.key) ++ [b] else r.bindingsOf id := by
  have hentry := entryOf?_modify (r := r) (·.add b) (fun _ => rfl) b.record id
  change bindingsOf (r.modify b.record (·.add b)) id = _
  unfold bindingsOf
  rw [hentry]
  by_cases hid : id = b.record
  · obtain ⟨e, he⟩ := Option.isSome_iff_exists.mp hhas
    simp [hid, he, Entry.add]
  · simp [hid]

/-- A binding of the same record takes the place of the one under its key. -/
theorem Entry.tidy_add {e : Entry} (h : e.Tidy) {b : Binding} (hb : b.record = e.record) :
    (e.add b).Tidy := by
  unfold add
  refine ⟨fun x hx => ?_, ?_⟩
  · rcases List.mem_append.mp hx with hx | hx
    · exact h.own x (List.mem_filter.mp hx).1
    · rw [List.mem_singleton.mp hx]
      exact hb
  · rw [List.map_append]
    refine List.nodup_append.mpr ⟨h.keys.sublist (List.filter_sublist.map _), by simp, ?_⟩
    intro k hk k' hk'
    obtain ⟨x, hx, rfl⟩ := List.mem_map.mp hk
    have hne := (List.mem_filter.mp hx).2
    simp only [List.map_cons, List.map_nil, List.mem_singleton] at hk'
    rw [hk']
    simpa using hne

/-- **A binding that is put under its key** leaves one binding under each key. -/
theorem tidy_insert (h : r.Tidy) (b : Binding) : (r.insert b).Tidy :=
  tidy_modify (·.add b) (fun _ => rfl) h b.record fun e he hid => Entry.tidy_add (h.entries e he) hid.symm

/-- Adding a binding fills an entry that has just been opened. -/
theorem sound_insert (h : r.Tidy) {b : Binding} (hfull : ∀ e ∈ r, e.record ≠ b.record → e.bindings ≠ []) :
    (r.insert b).Sound := by
  refine ⟨tidy_insert h b, ?_⟩
  intro x hx
  obtain ⟨e, he, rfl⟩ := List.mem_map.mp hx
  by_cases hid : e.record = b.record
  · simp [hid]
  · rw [if_neg hid]
    exact hfull e he hid

/-! ## Removing bindings -/

/-- Whole entries are taken out by their records. -/
theorem entryOf?_filter (p : RecordId → Bool) (r : Registry) (id : RecordId) :
    entryOf? (r.filter fun e => p e.record) id = if p id then r.entryOf? id else none := by
  induction r with
  | nil => simp [entryOf?]
  | cons x rest ih =>
    unfold entryOf? at ih ⊢
    by_cases hx : x.record = id
    · cases hp : p id with
      | true => simp [hx, hp]
      | false =>
        rw [List.filter_cons_of_neg (by simp [hx, hp]), ih]
        simp [hp]
    · cases hpx : p x.record with
      | true =>
        rw [List.filter_cons_of_pos (by simp [hpx]), List.find?_cons, List.find?_cons, ih]
        simp [hx]
      | false =>
        rw [List.filter_cons_of_neg (by simp [hpx]), ih, List.find?_cons]
        simp [hx]

/-- **Closing entries removes all their bindings, and no others.** -/
theorem bindingsOf_filter (p : RecordId → Bool) (r : Registry) (id : RecordId) :
    bindingsOf (r.filter fun e => p e.record) id = if p id then r.bindingsOf id else [] := by
  unfold bindingsOf
  rw [entryOf?_filter]
  cases p id <;> simp

theorem tidy_filter (h : r.Tidy) (p : Entry → Bool) : Tidy (r.filter p) where
  records := h.records.sublist (List.filter_sublist.map _)
  entries e he := h.entries e (List.mem_filter.mp he).1

theorem sound_filter (h : r.Sound) (p : Entry → Bool) : Sound (r.filter p) where
  toTidy := tidy_filter h.toTidy p
  nonempty e he := h.nonempty e (List.mem_filter.mp he).1

theorem sound_nil : Sound [] := ⟨⟨List.nodup_nil, by simp⟩, by simp⟩

/-- Closing the entry of a record takes all its bindings out. -/
theorem bindingsOf_close (r : Registry) (id id' : RecordId) :
    (r.close id).bindingsOf id' = if id' = id then [] else r.bindingsOf id' := by
  have hclose := bindingsOf_filter (fun x => decide (x ≠ id)) r id'
  unfold close
  rw [hclose]
  by_cases hid : id' = id <;> simp [hid]

/-- **Removing a binding removes what stands under its key, and nothing else.** -/
theorem bindingsOf_remove (r : Registry) (id : RecordId) (key : BindingKey) (id' : RecordId) :
    (r.remove id key).bindingsOf id' =
      if id' = id then (r.bindingsOf id').filter (·.key ≠ key) else r.bindingsOf id' := by
  unfold remove
  split
  · next hlast =>
    rw [bindingsOf_close]
    by_cases hid : id' = id
    · subst hid
      have hall : ∀ b ∈ r.bindingsOf id', b.key = key := by simpa [isLast] using hlast
      have hnil : (r.bindingsOf id').filter (·.key ≠ key) = [] := by
        refine List.filter_eq_nil_iff.mpr fun b hb => ?_
        simp [hall b hb]
      rw [if_pos rfl, if_pos rfl, hnil]
    · simp [hid]
  · unfold bindingsOf
    rw [entryOf?_modify (·.without key) fun _ => rfl]
    by_cases hid : id' = id
    · cases hfound : r.entryOf? id <;> simp [hid, hfound, Entry.without]
    · simp [hid]

theorem Entry.tidy_without {e : Entry} (h : e.Tidy) (key : BindingKey) : (e.without key).Tidy :=
  ⟨fun x hx => h.own x (List.mem_filter.mp hx).1, h.keys.sublist (List.filter_sublist.map _)⟩

/-- Removing a key leaves one binding under each of the others. -/
theorem tidy_remove (h : r.Tidy) (id : RecordId) (key : BindingKey) : (r.remove id key).Tidy := by
  unfold remove
  split
  · exact tidy_filter h _
  · exact tidy_modify (·.without key) (fun _ => rfl) h id fun e he _ => Entry.tidy_without (h.entries e he) key

/-- **Removing a key** closes the entry of its record with the last of its bindings. -/
theorem sound_remove (h : r.Sound) (id : RecordId) (key : BindingKey) : (r.remove id key).Sound := by
  refine ⟨tidy_remove h.toTidy id key, ?_⟩
  unfold remove
  split
  · exact (sound_filter h _).nonempty
  · next hlast =>
    intro x hx
    obtain ⟨e, he, rfl⟩ := List.mem_map.mp hx
    by_cases hid : e.record = id
    · rw [if_pos hid]
      intro hnil
      -- an entry that becomes empty had no other key
      refine hlast ?_
      unfold isLast
      rw [bindingsOf_of_entryOf? ((entryOf?_eq_some_iff h.records).mpr ⟨he, hid⟩), List.all_eq_true]
      intro b hb
      have hkey := List.filter_eq_nil_iff.mp hnil b hb
      simpa using hkey
    · rw [if_neg hid]
      exact h.nonempty e he

/-- **A record has bindings exactly if it has an entry.** -/
theorem Sound.bindingsOf_ne_nil (hr : r.Sound) {id : RecordId} :
    r.bindingsOf id ≠ [] ↔ ∃ e ∈ r, e.record = id := by
  constructor
  · intro hne
    cases hentry : r.entryOf? id with
    | none => exact absurd (by simp [bindingsOf, hentry]) hne
    | some e => exact ⟨e, entryOf?_eq_some hentry⟩
  · intro he
    obtain ⟨e, he, hid⟩ := he
    rw [bindingsOf_of_entryOf? ((entryOf?_eq_some_iff hr.records).mpr ⟨he, hid⟩)]
    exact hr.nonempty e he

end Databind.Registry
