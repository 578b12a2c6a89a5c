/-!
# `Record.ChangeSet` — the names one notification carries

A change set is a list of names without repetition, in the order in which they were added.
-/

namespace Databind

/-- An element at the end of a list counts if it is not there before. -/
theorem eraseDups_concat {α : Type} [DecidableEq α] (l : List α) (a : α) :
    (l ++ [a]).eraseDups = if a ∈ l then l.eraseDups else l.eraseDups ++ [a] := by
  rw [List.eraseDups_append]
  by_cases hmem : a ∈ l
  · simp [List.removeAll, hmem]
  · simp [List.removeAll, hmem, List.eraseDups_cons]

/-- The field names of one change notification. -/
structure ChangeSet where
  names : List String
  nodup : names.Nodup
deriving DecidableEq

namespace ChangeSet

/-- The change set without names. -/
def empty : ChangeSet := ⟨[], .nil⟩

/-- Whether a name is in the set. -/
def contains (set : ChangeSet) (name : String) : Bool := set.names.contains name

/-- The set with a name added at the end; a name that is there already changes nothing. -/
def insert (set : ChangeSet) (name : String) : ChangeSet :=
  if h : name ∈ set.names then set
  else ⟨set.names ++ [name], by
    refine List.nodup_append.2 ⟨set.nodup, by simp, ?_⟩
    intro a ha b hb
    rw [List.mem_singleton.1 hb]
    exact fun he => h (he ▸ ha)⟩

/-- **The names after an insertion are the names before and the new one.** -/
theorem mem_insert {set : ChangeSet} {name other : String} :
    other ∈ (set.insert name).names ↔ other ∈ set.names ∨ other = name := by
  simp only [insert]
  split
  · next h => exact ⟨.inl, fun h' => h'.elim id (fun he => he ▸ h)⟩
  · simp

/-- The set of a single name. -/
def single (name : String) : ChangeSet := empty.insert name

/-- The set of a list of names. -/
def ofList (names : List String) : ChangeSet := names.foldl insert empty

/-- Whether some of the given names is in the set. -/
def intersects (set : ChangeSet) (names : List String) : Bool := names.any set.contains

/-- Whether the set has no name. -/
def isEmpty (set : ChangeSet) : Bool := set.names.isEmpty

end ChangeSet

end Databind
