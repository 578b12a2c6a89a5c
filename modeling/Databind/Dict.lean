/-!
# `Dict` — finite maps with text keys, kept in key order

A dictionary is a list of entries with strictly increasing keys, so a dictionary is determined by what
it answers (`ext_get?`) and its entries come out sorted. The laws are the two read-after-write
equations `get?_insert` and `get?_erase`.
-/

namespace Databind

/-- A finite map from texts, its entries in strictly increasing order of keys. -/
structure Dict (α : Type) where
  entries : List (String × α)
  sorted : entries.Pairwise fun a b => a.1 < b.1
deriving DecidableEq

namespace Dict

variable {α : Type}

/-- The dictionary without entries. -/
def empty : Dict α := ⟨[], .nil⟩

instance : EmptyCollection (Dict α) := ⟨empty⟩

/-- The value under a key. -/
def get? (d : Dict α) (key : String) : Option α := d.entries.lookup key

/-- Whether a key has a value. -/
def contains (d : Dict α) (key : String) : Bool := (d.get? key).isSome

theorem lookup_cons_ite (key : String) (entry : String × α) (rest : List (String × α)) :
    (entry :: rest).lookup key = if key = entry.1 then some entry.2 else rest.lookup key := by
  obtain ⟨k, v⟩ := entry
  by_cases h : key = k
  · simp [h]
  · have hb : (key == k) = false := by simpa using h
    simp [List.lookup_cons, h, hb]

/-! ## Insertion -/

/-- The entries with one key set, at its place in the order. -/
def insertEntry (key : String) (value : α) : List (String × α) → List (String × α)
  | [] => [(key, value)]
  | entry :: rest =>
    if key < entry.1 then (key, value) :: entry :: rest
    else if key = entry.1 then (key, value) :: rest
    else entry :: insertEntry key value rest

theorem mem_insertEntry {key : String} {value : α} {entries : List (String × α)}
    {e : String × α} (h : e ∈ insertEntry key value entries) : e = (key, value) ∨ e ∈ entries := by
  induction entries with
  | nil => simpa [insertEntry] using h
  | cons entry rest ih =>
    simp only [insertEntry] at h
    split at h
    · simpa using h
    · split at h
      · rcases List.mem_cons.1 h with h | h
        · exact .inl h
        · exact .inr (List.mem_cons_of_mem _ h)
      · rcases List.mem_cons.1 h with h | h
        · exact .inr (h ▸ List.mem_cons_self)
        · exact (ih h).imp_right (List.mem_cons_of_mem _)

theorem insertEntry_sorted (key : String) (value : α) {entries : List (String × α)}
    (h : entries.Pairwise fun a b => a.1 < b.1) :
    (insertEntry key value entries).Pairwise fun a b => a.1 < b.1 := by
  induction entries with
  | nil => simp [insertEntry]
  | cons entry rest ih =>
    obtain ⟨hhead, htail⟩ := List.pairwise_cons.1 h
    simp only [insertEntry]
    split
    · next hlt =>
      refine List.pairwise_cons.2 ⟨fun e he => ?_, h⟩
      rcases List.mem_cons.1 he with rfl | he
      · exact hlt
      · exact String.lt_trans hlt (hhead e he)
    · next hlt =>
      split
      · next heq => exact List.pairwise_cons.2 ⟨fun e he => heq ▸ hhead e he, htail⟩
      · next hne =>
        refine List.pairwise_cons.2 ⟨fun e he => ?_, ih htail⟩
        rcases mem_insertEntry he with rfl | he
        · exact Std.lt_of_le_of_ne (String.not_lt.1 hlt) (Ne.symm hne)
        · exact hhead e he

theorem lookup_insertEntry (key : String) (value : α) (entries : List (String × α)) (other : String)
    (h : entries.Pairwise fun a b => a.1 < b.1) :
    (insertEntry key value entries).lookup other =
      if other = key then some value else entries.lookup other := by
  induction entries with
  | nil => simp [insertEntry, lookup_cons_ite]
  | cons entry rest ih =>
    obtain ⟨hhead, htail⟩ := List.pairwise_cons.1 h
    simp only [insertEntry]
    split
    · rw [lookup_cons_ite]
    · split
      · next heq =>
        rw [lookup_cons_ite, lookup_cons_ite]
        by_cases ho : other = key <;> simp [ho, ← heq]
      · next hne =>
        rw [lookup_cons_ite, lookup_cons_ite, ih htail]
        by_cases ho : other = key
        · simp [ho, hne]
        · simp [ho]

/-- The dictionary with one key set. -/
def insert (d : Dict α) (key : String) (value : α) : Dict α :=
  ⟨insertEntry key value d.entries, insertEntry_sorted key value d.sorted⟩

/-- **A key reads as it was last set, and no other key changes.** -/
theorem get?_insert (d : Dict α) (key : String) (value : α) (other : String) :
    (d.insert key value).get? other = if other = key then some value else d.get? other :=
  lookup_insertEntry key value d.entries other d.sorted

/-! ## Removal -/

/-- The dictionary without a key. -/
def erase (d : Dict α) (key : String) : Dict α :=
  ⟨d.entries.filter (·.1 != key), d.sorted.filter _⟩

/-- **An erased key has no value, and no other key changes.** -/
theorem get?_erase (d : Dict α) (key other : String) :
    (d.erase key).get? other = if other = key then none else d.get? other := by
  simp only [get?, erase]
  induction d.entries with
  | nil => simp
  | cons entry rest ih =>
    by_cases he : entry.1 = key
    · rw [List.filter_cons_of_neg (by simp [he]), ih, lookup_cons_ite]
      by_cases ho : other = key <;> simp [ho, he]
    · rw [List.filter_cons_of_pos (by simp [he]), lookup_cons_ite, lookup_cons_ite, ih]
      by_cases ho : other = key
      · simp [ho, Ne.symm he]
      · simp [ho]

/-! ## Equality -/

/-- A key below all others has no value. -/
theorem lookup_eq_none_of_lt {key : String} {entries : List (String × α)} (h : ∀ e ∈ entries, key < e.1) :
    entries.lookup key = none := by
  induction entries with
  | nil => rfl
  | cons entry rest ih =>
    have hne : key ≠ entry.1 := fun heq => String.lt_irrefl _ (heq ▸ h entry List.mem_cons_self)
    rw [lookup_cons_ite, if_neg hne]
    exact ih fun e he => h e (List.mem_cons_of_mem _ he)

/-- Sorted entries that answer alike do not begin with different keys. -/
theorem not_lt_of_lookup_eq {entry entry' : String × α} {rest rest' : List (String × α)}
    (hhead : ∀ e ∈ rest', entry'.1 < e.1) (h : ∀ key, (entry :: rest).lookup key = (entry' :: rest').lookup key) :
    ¬ entry.1 < entry'.1 := by
  intro hlt
  have hfirst := h entry.1
  rw [lookup_cons_ite, if_pos rfl, lookup_eq_none_of_lt] at hfirst
  · cases hfirst
  · intro e he
    rcases List.mem_cons.1 he with rfl | he
    · exact hlt
    · exact String.lt_trans hlt (hhead e he)

theorem eq_of_lookup_eq {entries entries' : List (String × α)} (hsorted : entries.Pairwise fun a b => a.1 < b.1)
    (hsorted' : entries'.Pairwise fun a b => a.1 < b.1) (h : ∀ key, entries.lookup key = entries'.lookup key) :
    entries = entries' := by
  induction entries generalizing entries' with
  | nil =>
    cases entries' with
    | nil => rfl
    | cons entry' rest' =>
      have hfirst := h entry'.1
      rw [lookup_cons_ite, if_pos rfl] at hfirst
      cases hfirst
  | cons entry rest ih =>
    obtain ⟨hhead, htail⟩ := List.pairwise_cons.1 hsorted
    cases entries' with
    | nil =>
      have hfirst := h entry.1
      rw [lookup_cons_ite, if_pos rfl] at hfirst
      cases hfirst
    | cons entry' rest' =>
      obtain ⟨hhead', htail'⟩ := List.pairwise_cons.1 hsorted'
      have hnot := not_lt_of_lookup_eq hhead' h
      have hnot' := not_lt_of_lookup_eq hhead fun key => (h key).symm
      have hkey : entry.1 = entry'.1 := String.le_antisymm (String.not_lt.1 hnot') (String.not_lt.1 hnot)
      have hvalue := h entry.1
      rw [lookup_cons_ite, lookup_cons_ite, if_pos rfl, if_pos hkey] at hvalue
      have hrest : rest = rest' := by
        apply ih htail htail'
        intro key
        have hall := h key
        rw [lookup_cons_ite, lookup_cons_ite, ← hkey] at hall
        by_cases hfirst : key = entry.1
        · -- the first key occurs in neither rest
          rw [hfirst, lookup_eq_none_of_lt hhead, hkey, lookup_eq_none_of_lt hhead']
        · rwa [if_neg hfirst, if_neg hfirst] at hall
      rw [hrest, Prod.ext hkey (Option.some.inj hvalue)]

/-- **A dictionary is determined by what it answers.** -/
theorem ext_get? {d d' : Dict α} (h : ∀ key, d.get? key = d'.get? key) : d = d' := by
  obtain ⟨entries, hsorted⟩ := d
  obtain ⟨entries', hsorted'⟩ := d'
  obtain rfl : entries = entries' := eq_of_lookup_eq hsorted hsorted' h
  rfl

/-! ## Building -/

/-- The dictionary of a list of entries; a later entry replaces an earlier one of the same key. -/
def ofList (entries : List (String × α)) : Dict α :=
  entries.foldl (fun d e => d.insert e.1 e.2) empty

end Dict

end Databind
