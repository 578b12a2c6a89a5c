import Databind.Dict
import Databind.Value

/-!
# `Fields` — the fields of a record as a value

An accessor sees a record only through its fields: what a name holds, and whether it holds anything.
-/

namespace Databind

/-- The stored fields of a record. -/
abbrev Fields := Dict Value

namespace Fields

/-- The value of a field, `undefined` when it is absent. -/
def get (fields : Fields) (name : String) : Value := (Dict.get? fields name).getD .undefined

/-- Whether a field is present. -/
def has (fields : Fields) (name : String) : Bool := Dict.contains fields name

/-- The fields of a new record; `undefined` entries are skipped. -/
def ofEntries (entries : List (String × Value)) : Fields :=
  Dict.ofList (entries.filter fun e => !e.2.isUndefined)

/-! ## Proper fields -/

/-- **A field is present exactly if it holds something.** -/
def Proper (fields : Fields) : Prop := ∀ name, fields.has name = true ↔ fields.get name ≠ .undefined

variable {fields : Fields}

/-- Fields are proper exactly if none of them holds `undefined`. -/
theorem proper_iff : fields.Proper ↔ ∀ name v, Dict.get? fields name = some v → v ≠ .undefined := by
  refine forall_congr' fun name => ?_
  unfold has get Dict.contains
  cases Dict.get? fields name <;> simp

theorem proper_empty : Proper .empty := proper_iff.mpr fun _ _ h => by cases h

/-- Storing a defined value keeps fields proper. -/
theorem Proper.insert (h : fields.Proper) (name : String) {v : Value} (hv : v.isUndefined = false) :
    Proper (Dict.insert fields name v) := by
  rw [proper_iff] at h ⊢
  intro name' v' hget
  rw [Dict.get?_insert] at hget
  split at hget
  · rintro rfl
    cases hget
    cases hv
  · exact h name' v' hget

theorem Proper.erase (h : fields.Proper) (name : String) : Proper (Dict.erase fields name) := by
  rw [proper_iff] at h ⊢
  intro name' v' hget
  rw [Dict.get?_erase] at hget
  split at hget
  · cases hget
  · exact h name' v' hget

/-- The fields that a record is made with are proper: an undefined one is left out. -/
theorem proper_ofEntries (entries : List (String × Value)) : (ofEntries entries).Proper := by
  have hfold : ∀ (entries : List (String × Value)) (fields : Fields), fields.Proper →
      (∀ e ∈ entries, e.2.isUndefined = false) →
      Proper (entries.foldl (fun d e => Dict.insert d e.1 e.2) fields) := by
    intro entries
    induction entries with
    | nil => exact fun _ hfields _ => hfields
    | cons e rest ih =>
      intro fields hfields hall
      exact ih _ (hfields.insert e.1 (hall e List.mem_cons_self)) fun e' he' => hall e' (List.mem_cons_of_mem _ he')
  exact hfold _ _ proper_empty fun e he => by simpa using (List.mem_filter.mp he).2

end Fields

end Databind
